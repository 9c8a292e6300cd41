import RfidEncryption.Server.Handlers
import RfidEncryption.Text.Json
import RfidEncryption.Text.Message
import RfidEncryption.Text.Query

/-! How the server makes a request of the bytes it receives, and of the body a request carries. -/

namespace Rfid

open Text

/-- The text of some bytes, if they are valid UTF-8. -/
def textOf (bytes : Bytes) : Option String := String.fromUTF8? ⟨bytes.toArray⟩

/-- The bytes of a text are those of that text. -/
@[simp] theorem textOf_utf8 (text : String) : textOf (utf8 text) = some text := by
  have same : (⟨(utf8 text).toArray⟩ : ByteArray) = text.toByteArray := rfl
  rw [textOf, same, String.fromUTF8?, dif_pos text.isValidUTF8]
  rfl

/--
A member of an object is put into the field of `Request` whose name it has.

The case of its letters does not matter, and a value of `null` leaves the field as it was.
-/
def setField (req : Request) (field : Bytes × Option Bytes) : Request :=
  match field.2 with
  | none => req
  | some text =>
    let name := field.1.map lowerByte
    if name = utf8 "type" then { req with type := (textOf text).getD "" }
    else if name = utf8 "uid" then { req with uid := text }
    else if name = utf8 "one_time_card_key" then { req with otAK := text }
    else if name = utf8 "new_one_time_card_key" then { req with newOtAK := text }
    else if name = utf8 "pw" then { req with password := text }
    else if name = utf8 "totp" then { req with totp := text }
    else req

/--
`json.NewDecoder(r.Body).Decode(&Req)`, which does not look at what comes behind the object.

Of the bodies that Go accepts these are those of an object of texts and nulls in valid UTF-8: the
body `null`, members of an unknown name with another value, and bytes that Go replaces are not
considered.
-/
def decodeRequest (body : Bytes) : Option Request :=
  (readJsonObject body).map fun read => read.1.foldl setField { type := "" }

/-- What the handlers are given of a request that has arrived. -/
def httpRequest (m : Message) : HttpRequest :=
  { path := (textOf (m.target.takeWhile (· ≠ 63))).getD ""
    method := (textOf m.method).getD ""
    queryUID := (queryGet (utf8 "UID") m.target).getD []
    body := decodeRequest m.body }

/-- The requests the server serves when some bytes have arrived on a connection. -/
def arrivedRequests (bytes : Bytes) : List HttpRequest := (arrivedMessages bytes).map httpRequest

/-- The fields of a written object are those of the request. -/
theorem decodeRequest_object (fields : JsonFields) :
    decodeRequest (jsonObject fields) = some (fields.foldl setField { type := "" }) := by
  have read := readJsonObject_object [] fields
  rw [List.append_nil] at read
  rw [decodeRequest, read]
  rfl

end Rfid
