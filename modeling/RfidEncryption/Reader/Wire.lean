import RfidEncryption.Reader.Request
import RfidEncryption.Server.OneTime
import RfidEncryption.Text.Json
import RfidEncryption.Text.Message

/-! The bytes `https_request` writes to its connection. -/

namespace Rfid

open Text

/-- `snprintf` into a buffer of some size, which cuts a text that does not fit. -/
def snprintf (size : Nat) (text : Bytes) : Bytes := text.take (size - 1)

/-- `HOST` -/
def host : Bytes := utf8 "Host: 192.168.153.15\r\n"

/-- The request that carries some JSON. -/
def postText (json : Bytes) : Bytes :=
  utf8 "POST /json HTTP/1.1\r\n" ++ host ++ utf8 "Content-Type: application/json\r\n" ++
    utf8 "Content-Length: " ++ decimal 1 json.length ++ utf8 "\r\n" ++
    utf8 "User-Agent: esp-idf/1.0 esp32\r\n" ++ utf8 "\r\n" ++ json

/-- The JSON of a card and the key that was read from it. -/
def uidKeyJson (hexUid hexKey : Bytes) : Bytes :=
  jsonObject [(utf8 "type", some (utf8 "UID_KEY")), (utf8 "UID", some hexUid),
    (utf8 "One_time_Card_KEY", some hexKey)]

/-- The JSON of a card and the key that was written to it. -/
def newCardKeyJson (hexUid hexKey : Bytes) : Bytes :=
  jsonObject [(utf8 "type", some (utf8 "New_Card_Key")), (utf8 "UID", some hexUid),
    (utf8 "New_One_time_Card_KEY", some hexKey)]

/-- The request that is repeated until the door may open. -/
def heartbeatText : Bytes := utf8 "HEAD /OPEN HTTP/1.1\r\n" ++ host ++ utf8 "\r\n"

/-- What `esp_tls_conn_write` is given: `request`, `new_key_request` or `heartbeat_request`. -/
def Reader.requestText (r : Reader) : Bytes :=
  let hexUid := bytesToHexString r.uid.toList
  match r.stage with
  | .sendUidKey =>
    snprintf 1024 (postText (uidKeyJson hexUid (bytesToHexString r.cardKey.toList)))
  | .sendNewCardKey =>
    snprintf 512 (postText (newCardKeyJson hexUid (bytesToHexString r.randomBytes.toList)))
  | .sendOpen => snprintf 64 heartbeatText
  | _ => []

/-- The message of a request that carries some JSON. -/
def postMessage (json : Bytes) : Message :=
  { method := utf8 "POST"
    target := utf8 "/json"
    fields := [(utf8 "Host", utf8 "192.168.153.15"), (utf8 "Content-Type", utf8 "application/json"),
      (utf8 "Content-Length", decimal 1 json.length), (utf8 "User-Agent", utf8 "esp-idf/1.0 esp32")]
    body := json }

/-- The message that asks for the door. -/
def heartbeatMessage : Message :=
  { method := utf8 "HEAD", target := utf8 "/OPEN", fields := [(utf8 "Host", utf8 "192.168.153.15")],
    body := [] }

/-- The message a reader sends, if it sends one. -/
def Reader.message (r : Reader) : Option Message :=
  let hexUid := bytesToHexString r.uid.toList
  match r.stage with
  | .sendUidKey => some (postMessage (uidKeyJson hexUid (bytesToHexString r.cardKey.toList)))
  | .sendNewCardKey =>
    some (postMessage (newCardKeyJson hexUid (bytesToHexString r.randomBytes.toList)))
  | .sendOpen => some heartbeatMessage
  | _ => none

/-- A printed number is the number it was printed from. -/
theorem digitsValue_decimal (number : Nat) : Hotp.digitsValue (decimal 1 number) = number := by
  rw [decimal, List.leftpad, Hotp.digitsValue_zeros, digitsValue_toDigits]

/-- A small number takes few digits. -/
theorem decimal_short {number digits : Nat} (positive : 0 < digits) (small : number < 10 ^ digits) :
    (decimal 1 number).length ≤ digits := by
  have length := (Nat.length_toDigits_le_iff (by decide) positive).mpr small
  simp only [decimal, List.length_leftpad, List.length_map]
  omega

/-- The text of a request with JSON is that of its message. -/
theorem postText_eq (json : Bytes) : postText json = (postMessage json).bytes := by
  -- What is printed around the length and the JSON does not depend on them.
  have printed : utf8 "POST /json HTTP/1.1\r\n" =
        utf8 "POST" ++ [32] ++ utf8 "/json" ++ [32] ++ version ++ [13, 10] ∧
      host = fieldLine (utf8 "Host", utf8 "192.168.153.15") ++ [13, 10] ∧
      utf8 "Content-Type: application/json\r\n" =
        fieldLine (utf8 "Content-Type", utf8 "application/json") ++ [13, 10] ∧
      utf8 "Content-Length: " = utf8 "Content-Length" ++ [58, 32] ∧ utf8 "\r\n" = [13, 10] ∧
      utf8 "User-Agent: esp-idf/1.0 esp32\r\n" =
        fieldLine (utf8 "User-Agent", utf8 "esp-idf/1.0 esp32") ++ [13, 10] := by decide
  obtain ⟨first, named, typed, long, line, agent⟩ := printed
  rw [postText, first, named, typed, long, line, agent]
  simp [Message.bytes, Message.firstLine, postMessage, fieldLine]

/-- No byte takes more than six in a JSON text. -/
theorem length_jsonEscape (byte : UInt8) : (jsonEscape byte).length ≤ 6 := by
  unfold jsonEscape
  split_ifs <;> simp

/-- A JSON text is at most six times as long as the text, and two quotation marks longer. -/
theorem length_jsonString (text : Bytes) : (jsonString text).length ≤ 6 * text.length + 2 := by
  have escaped : (text.flatMap jsonEscape).length ≤ 6 * text.length := by
    induction text with
    | nil => exact Nat.zero_le _
    | cons byte text ih =>
      have first := length_jsonEscape byte
      rw [List.flatMap_cons, List.length_append, List.length_cons]
      omega
  simp only [jsonString, List.length_append, List.length_singleton]
  omega

/-- Bytes in hexadecimal are two digits each. -/
theorem length_bytesToHexString (bytes : Bytes) :
    (bytesToHexString bytes).length = 2 * bytes.length := by
  induction bytes with
  | nil => rfl
  | cons byte bytes ih =>
    have pair :
        bytesToHexString (byte :: bytes) = Text.hexPair byte ++ bytesToHexString bytes := rfl
    rw [pair, List.length_append, ih, List.length_cons]
    simp only [Text.hexPair, List.length_cons, List.length_nil]
    omega

/-- The requests with JSON fit the buffers they are printed into. -/
theorem length_postText (json : Bytes) (short : json.length < 1000) :
    (postText json).length ≤ 129 + json.length := by
  have digits := decimal_short (by decide : 0 < 3) short
  have around : (utf8 "POST /json HTTP/1.1\r\n" ++ host ++
      utf8 "Content-Type: application/json\r\n" ++ utf8 "Content-Length: ").length +
      (utf8 "\r\n").length + (utf8 "User-Agent: esp-idf/1.0 esp32\r\n").length +
      (utf8 "\r\n").length = 126 := by decide
  simp only [postText, List.length_append] at around ⊢
  omega

/-- The JSON of a card and a key is short. -/
theorem length_cardJson (kind name : Bytes) (uid : Uid) (key : CardKey) :
    (jsonObject [(utf8 "type", some kind), (utf8 "UID", some (bytesToHexString uid.toList)),
      (name, some (bytesToHexString key.toList))]).length ≤
      (jsonString kind).length + (jsonString name).length + 286 := by
  have hexUid := length_jsonString (bytesToHexString uid.toList)
  have hexKey := length_jsonString (bytesToHexString key.toList)
  have names : (jsonString (utf8 "type")).length + (jsonString (utf8 "UID")).length = 11 := by
    decide
  rw [length_bytesToHexString, Vector.length_toList] at hexUid hexKey
  simp only [jsonObject, jsonTail, jsonMember, jsonValue, List.length_append, List.length_cons,
    List.length_nil]
  omega

/-- A text that fits a buffer is printed as it is. -/
theorem snprintf_eq {size : Nat} {text : Bytes} (fits : text.length < size) :
    snprintf size text = text :=
  List.take_of_length_le (by omega)

/-- What a reader writes is the message it sends, and nothing where it sends none. -/
theorem requestText_eq (r : Reader) :
    r.requestText = ((r.message).map Message.bytes).getD [] := by
  unfold Reader.requestText Reader.message
  split
  · -- The text of a presented card.
    have json := length_cardJson (utf8 "UID_KEY") (utf8 "One_time_Card_KEY") r.uid r.cardKey
    have names : (jsonString (utf8 "UID_KEY")).length +
        (jsonString (utf8 "One_time_Card_KEY")).length = 28 := by decide
    rw [← uidKeyJson] at json
    have text := length_postText (uidKeyJson (bytesToHexString r.uid.toList)
      (bytesToHexString r.cardKey.toList)) (by omega)
    rw [snprintf_eq (by omega), postText_eq]
    rfl
  · have json := length_cardJson (utf8 "New_Card_Key") (utf8 "New_One_time_Card_KEY") r.uid
      r.randomBytes
    have names : (jsonString (utf8 "New_Card_Key")).length +
        (jsonString (utf8 "New_One_time_Card_KEY")).length = 37 := by decide
    rw [← newCardKeyJson] at json
    have text := length_postText (newCardKeyJson (bytesToHexString r.uid.toList)
      (bytesToHexString r.randomBytes.toList)) (by omega)
    rw [snprintf_eq (by omega), postText_eq]
    rfl
  · have text : snprintf 64 heartbeatText = heartbeatMessage.bytes := by decide
    rw [text]
    rfl
  · rfl

/-- No byte of a printed number is one that separates. -/
theorem decimal_plain {number : Nat} {byte : UInt8} (printed : byte ∈ decimal 1 number) :
    byte ≠ 9 ∧ byte ≠ 10 ∧ byte ≠ 32 := by
  have least := UInt8.le_iff_toNat_le.mp (mem_decimal printed).1
  have value : (48 : UInt8).toNat = 48 := rfl
  refine ⟨?_, ?_, ?_⟩
  all_goals
    intro same
    rw [same] at least
    cases (by decide : ¬ _) least

/-- The length that is printed is the one that is read. -/
theorem bodyLength_postMessage (json : Bytes) :
    bodyLength (postMessage json).fields = some json.length := by
  have named : isLength (utf8 "Host", utf8 "192.168.153.15") = false ∧
      isLength (utf8 "Content-Type", utf8 "application/json") = false ∧
      (utf8 "Content-Length").map lowerByte = lengthName := by decide
  obtain ⟨first, second, third⟩ := named
  have found : (postMessage json).fields.find? isLength =
      some (utf8 "Content-Length", decimal 1 json.length) := by
    have told : isLength (utf8 "Content-Length", decimal 1 json.length) = true :=
      decide_eq_true third
    simp [postMessage, first, second, told]
  have filled : decimal 1 json.length ≠ [] := by
    intro empty
    have width := decimal_length 1 json.length
    rw [empty] at width
    cases width
  have digits : (decimal 1 json.length).all (fun byte => 48 ≤ byte ∧ byte ≤ 57) = true :=
    List.all_eq_true.mpr fun byte printed => decide_eq_true (mem_decimal printed)
  rw [bodyLength, found]
  simp only [if_pos (And.intro filled digits), digitsValue_decimal]

/-- The messages with JSON are well formed whatever the JSON is. -/
theorem postMessage_wellFormed (json : Bytes) : (postMessage json).WellFormed where
  method := by
    show (32 : UInt8) ∉ utf8 "POST"
    decide
  target := by
    show (32 : UInt8) ∉ utf8 "/json"
    decide
  line := by
    show (10 : UInt8) ∉ utf8 "POST" ++ [32] ++ utf8 "/json" ++ [32] ++ version
    decide
  names field listed := by
    have closed : ∀ name ∈ [utf8 "Host", utf8 "Content-Type", utf8 "Content-Length",
        utf8 "User-Agent"], (58 : UInt8) ∉ name := by decide
    exact closed field.1 (List.mem_map_of_mem listed)
  values field listed := by
    have closed : ∀ value ∈ [utf8 "192.168.153.15", utf8 "application/json",
        utf8 "esp-idf/1.0 esp32"], trimBlanks value = value := by decide
    have printed : trimBlanks (decimal 1 json.length) = decimal 1 json.length :=
      trimBlanks_eq fun byte inside => ⟨(decimal_plain inside).2.2, (decimal_plain inside).1⟩
    simp only [postMessage, List.mem_cons, List.not_mem_nil, or_false] at listed
    rcases listed with rfl | rfl | rfl | rfl
    · exact closed _ (by simp)
    · exact closed _ (by simp)
    · exact printed
    · exact closed _ (by simp)
  lines field listed := by
    have closed : ∀ line ∈ [fieldLine (utf8 "Host", utf8 "192.168.153.15"),
        fieldLine (utf8 "Content-Type", utf8 "application/json"), utf8 "Content-Length" ++ [58, 32],
        fieldLine (utf8 "User-Agent", utf8 "esp-idf/1.0 esp32")], (10 : UInt8) ∉ line := by
      decide
    simp only [postMessage, List.mem_cons, List.not_mem_nil, or_false] at listed
    rcases listed with rfl | rfl | rfl | rfl
    · exact closed _ (by simp)
    · exact closed _ (by simp)
    · intro inside
      cases List.mem_append.mp inside with
      | inl name => exact closed _ (by simp) name
      | inr printed => exact (decimal_plain printed).2.1 rfl
    · exact closed _ (by simp)
  length := bodyLength_postMessage json

/-- Every message a reader sends is well formed. -/
theorem Reader.message_wellFormed {r : Reader} {m : Message} (sends : r.message = some m) :
    m.WellFormed := by
  unfold Reader.message at sends
  split at sends
  · obtain rfl := Option.some.inj sends
    exact postMessage_wellFormed _
  · obtain rfl := Option.some.inj sends
    exact postMessage_wellFormed _
  · obtain rfl := Option.some.inj sends
    exact {
      method := by decide
      target := by decide
      line := by decide
      names := by decide
      values := by decide
      lines := by decide
      length := by decide }
  · cases sends

end Rfid
