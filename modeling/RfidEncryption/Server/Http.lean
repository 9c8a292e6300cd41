import RfidEncryption.Basic
import Mathlib.Data.Fin.VecNotation

/-! Replies written through an HTTP response writer, and their bytes on the connection. -/

namespace Rfid

/-- The status codes the handlers answer with. -/
inductive Status where
  | ok
  | badRequest
  | unauthorized
  | notFound
  | methodNotAllowed
  deriving DecidableEq, Repr

/-- The number and text of a status line. -/
def Status.text : Status → String
  | .ok => "200 OK"
  | .badRequest => "400 Bad Request"
  | .unauthorized => "401 Unauthorized"
  | .notFound => "404 Not Found"
  | .methodNotAllowed => "405 Method Not Allowed"

/-- The header fields the handlers set. -/
structure Header where
  contentType : Option String := none
  xContentTypeOptions : Option String := none
  deriving DecidableEq, Repr

/-- What a handler has written so far. -/
structure ResponseWriter where
  header : Header := {}
  /-- The status and header fixed by the first `WriteHeader`. -/
  wroteHeader : Option (Status × Header) := none
  body : Bytes := []
  deriving DecidableEq, Repr

namespace ResponseWriter

/-- `w.Header().Set("Content-Type", value)` -/
def setContentType (w : ResponseWriter) (value : String) : ResponseWriter :=
  { w with header := { w.header with contentType := some value } }

/-- `w.WriteHeader(status)`, of which only the first call counts. -/
def writeHeader (w : ResponseWriter) (status : Status) : ResponseWriter :=
  match w.wroteHeader with
  | some _ => w
  | none => { w with wroteHeader := some (status, w.header) }

/-- `w.Write(data)`, which fixes the status as 200 when none was written. -/
def write (w : ResponseWriter) (data : Bytes) : ResponseWriter :=
  -- A body without a status is one of success.
  let w := w.writeHeader .ok
  { w with body := w.body ++ data }

/-- `http.Error(w, message, status)` -/
def error (w : ResponseWriter) (message : String) (status : Status) : ResponseWriter :=
  -- The fields are set even where the status is fixed already, and then have no effect.
  let w := { w with header := ⟨some "text/plain; charset=utf-8", some "nosniff"⟩ }
  (w.writeHeader status).write (utf8 (message ++ "\n"))

/-- `http.ServeFile` of a page that may be missing. -/
def serveFile (w : ResponseWriter) : Option Bytes → ResponseWriter
  | none => w.error "404 page not found" .notFound
  | some page => ((w.setContentType "text/html; charset=utf-8").writeHeader .ok).write page

end ResponseWriter

/-- A finished reply. -/
structure Reply where
  status : Status
  header : Header
  body : Bytes
  deriving DecidableEq, Repr

/-- The reply a handler leaves behind, with status 200 when it wrote nothing. -/
def ResponseWriter.finish (w : ResponseWriter) : Reply :=
  match w.wroteHeader with
  | some (status, header) => ⟨status, header, w.body⟩
  | none => ⟨.ok, w.header, w.body⟩

/-- The date of a reply, in the form of the `Date` field. -/
structure HttpDate where
  weekday : Fin 7
  day : Nat
  month : Fin 12
  year : Nat
  hour : Nat
  minute : Nat
  second : Nat

/-- The abbreviated days of the week. -/
def weekdayNames : Fin 7 → String :=
  ![ "Sun", "Mon", "Tue", "Wed", "Thu", "Fri", "Sat"]

/-- The abbreviated months. -/
def monthNames : Fin 12 → String :=
  ![ "Jan", "Feb", "Mar", "Apr", "May", "Jun", "Jul", "Aug", "Sep", "Oct", "Nov", "Dec"]

/-- The ASCII digit of a number's last decimal place. -/
def lastDigit (number : Nat) : UInt8 := UInt8.ofNat (48 + number % 10)

/-- The two digits of a number below one hundred. -/
def twoDigits (number : Nat) : Bytes := [lastDigit (number / 10), lastDigit number]

/-- The text of a date, as `Sun, 06 Nov 1994 08:49:37 GMT`. -/
def HttpDate.text (date : HttpDate) : Bytes :=
  utf8 (weekdayNames date.weekday) ++ utf8 ", " ++ twoDigits date.day ++ utf8 " " ++
    utf8 (monthNames date.month) ++ utf8 " " ++ twoDigits (date.year / 100) ++
    twoDigits date.year ++ utf8 " " ++ twoDigits date.hour ++ utf8 ":" ++
    twoDigits date.minute ++ utf8 ":" ++ twoDigits date.second ++ utf8 " GMT"

/-- The lines before the empty line of a reply, without their line ends. -/
def Reply.lines (reply : Reply) (head : Bool) (date : HttpDate) : List Bytes :=
  [utf8 "HTTP/1.1 " ++ utf8 reply.status.text] ++
    (reply.header.contentType.map fun value => utf8 "Content-Type: " ++ utf8 value).toList ++
    (reply.header.xContentTypeOptions.map fun value =>
      utf8 "X-Content-Type-Options: " ++ utf8 value).toList ++
    [utf8 "Date: " ++ date.text] ++
    -- The length of an empty reply to `HEAD` is left out.
    if head && reply.body.isEmpty then []
    else [utf8 "Content-Length: " ++ decimal 1 reply.body.length]

/-- The bytes of a reply on the connection, without its body in answer to `HEAD`. -/
def Reply.bytes (reply : Reply) (head : Bool) (date : HttpDate) : Bytes :=
  (reply.lines head date ++ [[]]).flatMap (fun line => line ++ [13] ++ [10]) ++
    if head then [] else reply.body

end Rfid
