import RfidEncryption.Server.Database
import RfidEncryption.Reactive.Machine

/-! The request handlers of the server and the globals they share. -/

namespace Rfid

/-- A decoded JSON request, in which a field the client leaves out is empty. -/
structure Request where
  type : String
  uid : Bytes := []
  otAK : Bytes := []
  newOtAK : Bytes := []
  password : Bytes := []
  totp : Bytes := []
  deriving DecidableEq, Repr

/-- What a handler reads of an HTTP request, the body as the JSON decoder returns it. -/
structure HttpRequest where
  path : String
  method : String
  /-- The `UID` of the query string. -/
  queryUID : Bytes
  /-- `none` when the body is not the JSON of a request. -/
  body : Option Request
  deriving DecidableEq, Repr

/-- One request as it arrives at the server. -/
structure Call where
  env : Env
  request : HttpRequest

/-- The server's globals and its database. -/
structure Server where
  cards : Cards
  attemptTime : Nat
  checker : Bool
  passing : Bool
  testOnce : Bool
  deriving DecidableEq, Repr

/-- The server as a process starts on a database. -/
def Server.start (cards : Cards) : Server :=
  { cards, attemptTime := 0, checker := false, passing := false, testOnce := true }

/-- `const testing` -/
def testing : Bool := true

/-- `hex.DecodeString` with its error dropped, as every handler uses it. -/
def hexBytes (text : Bytes) : Bytes := (Text.hexDecode text).1

section
variable (crypto : Crypto) (env : Env) (s : Server) (w : ResponseWriter) (req : Request)

/-- The hash a password is compared by. -/
def hashOf (password : Bytes) : Bytes := (crypto.sha256 password).toList

/-- `case "Password"` of `handleJSON`. -/
def handlePassword : Server × ResponseWriter :=
  -- The password is tested before the one-time password, and either failure is counted.
  let hash := hashOf crypto req.password
  let binUID := hexBytes req.uid
  let (result, err) := databaseChecker crypto env s.cards binUID hash "password"
  if result ≠ 1 then
    ({ s with attemptTime := s.attemptTime + 1 }, w.error "Invalid password" .badRequest)
  -- Without a reply of its own this would be an empty 200.
  else if err.isSome then (s, w)
  else
    let (result, _) := databaseChecker crypto env s.cards binUID req.totp "TOTP"
    if result ≠ 1 then
      ({ s with attemptTime := s.attemptTime + 1 }, w.error "Invalid TOTP" .badRequest)
    -- Nothing notes whose login it was.
    else ({ s with passing := true }, w)

/-- The registration the first `UID_KEY` request of a process performs. -/
def testRegister : Server :=
  -- A row is added for the card even if it has one.
  if testing && s.testOnce then
    { s with
      cards := databaseRegister env s.cards (hexBytes req.uid)
        (hashOf crypto (utf8 "@Testing_password")) (hexBytes req.otAK) env.secret
      testOnce := false }
  else s

/-- `case "UID_KEY"` of `handleJSON`. -/
def handleUidKey : Server × ResponseWriter :=
  -- The first card of a process is registered before it is looked up.
  let s := testRegister crypto env s req
  let (result, err) :=
    databaseChecker crypto env s.cards (hexBytes req.uid) (hexBytes req.otAK) "key_this_time"
  if err.isSome then (s, w)
  else if result ≠ 1 then
    -- The second status is too late, but its body is still appended.
    let w := w.error "Invalid One time AES key" .badRequest
    (s, ((w.setContentType "text/plain").writeHeader .ok).write (utf8 "IS_OK:NO"))
  else
    -- Nothing notes whose card it was.
    ({ s with checker := true },
      ((w.setContentType "text/plain").writeHeader .ok).write (utf8 "IS_OK:OK"))

/-- `case "New_Card_Key"` of `handleJSON`. -/
def handleNewCardKey : Server × ResponseWriter :=
  -- Whether the card accepted is the one named is not asked.
  if s.checker then
    let (cards, err) :=
      databaseUpdater env s.cards (hexBytes req.uid) (hexBytes req.newOtAK) req.type
    let s := { s with cards }
    if err.isSome then
      let w := w.error "Write key wrong" .badRequest
      (s, ((w.setContentType "text/plain").writeHeader .ok).write (utf8 "IS_OK:NO"))
    else (s, ((w.setContentType "text/plain").writeHeader .ok).write (utf8 "IS_OK:OK"))
  -- Without a card session nothing is written, which the client sees as an empty 200.
  else (s, w)

/-- `handleJSON`, whose `UID` parameter is never read. -/
def handleJSON (body : Option Request) (_UID : Bytes) : Server × ResponseWriter :=
  match body with
  | none => (s, w.error "Invalid JSON" .badRequest)
  | some req =>
    if req.type = "Password" then handlePassword crypto env s w req
    else if req.type = "UID_KEY" then handleUidKey crypto env s w req
    else if req.type = "New_Card_Key" then handleNewCardKey env s w req
    else (s, w.error "Unknown Type" .badRequest)

/-- `case "/OPEN"` of `path_handler`. -/
def handleOpen : Server × ResponseWriter :=
  -- A grant uses up both flags and forgives failed logins.
  if s.passing && s.checker then
    ({ s with passing := false, checker := false, attemptTime := 0 },
      (w.setContentType "text/plain").writeHeader .ok)
  -- The limit is told once, and then the count starts over.
  else if 2 ≤ s.attemptTime then
    ({ s with attemptTime := 0 }, w.error "BadRequest" .badRequest)
  else (s, w.error "Unauthorized" .unauthorized)

/-- `path_handler` -/
def pathHandler (request : HttpRequest) : Server × ResponseWriter :=
  if request.path = "/" then (s, w.serveFile (env.files "index.html"))
  else if request.path = "/password_input" then
    if request.method ≠ "POST" then (s, w.error "Method Not Allowed" .methodNotAllowed)
    else
      -- The page follows whatever the request was answered.
      let (s, w) := handleJSON crypto env s w request.body request.queryUID
      (s, w.serveFile (env.files "input_totp.html"))
  else if request.path = "/json" then
    if request.method ≠ "POST" then (s, w.error "Method Not Allowed" .methodNotAllowed)
    else handleJSON crypto env s w request.body []
  else if request.path = "/OPEN" then handleOpen s w
  else (s, w.error "404 page not found" .notFound)

end

/-- One request served without another in between: the server afterwards and the reply. -/
def serve (crypto : Crypto) (s : Server) (call : Call) : Server × Reply :=
  let (s, w) := pathHandler crypto call.env s {} call.request
  (s, w.finish)

/-- The server as a machine that answers one request at a time. -/
def server (crypto : Crypto) : Reactive.Machine Server Call Reply := ⟨serve crypto⟩

end Rfid
