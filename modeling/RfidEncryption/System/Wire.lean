import RfidEncryption.Reader.Wire
import RfidEncryption.Server.Wire

/-! The requests the server serves are the ones the reader and the login page send. -/

namespace Rfid

open Text

section
variable (req : Request) (text : Bytes)

@[simp] theorem setField_type (type : String) :
    setField req (utf8 "type", some (utf8 type)) = { req with type := type } := by
  have named : setField req (utf8 "type", some (utf8 type)) =
      { req with type := (textOf (utf8 type)).getD "" } := rfl
  rw [named, textOf_utf8, Option.getD_some]

@[simp] theorem setField_uid :
    setField req (utf8 "UID", some text) = { req with uid := text } := rfl

@[simp] theorem setField_otAK :
    setField req (utf8 "One_time_Card_KEY", some text) = { req with otAK := text } := rfl

@[simp] theorem setField_newOtAK :
    setField req (utf8 "New_One_time_Card_KEY", some text) = { req with newOtAK := text } := rfl

@[simp] theorem setField_password :
    setField req (utf8 "PW", some text) = { req with password := text } := rfl

@[simp] theorem setField_totp :
    setField req (utf8 "TOTP", some text) = { req with totp := text } := rfl

end

/-- The JSON of a presented card is decoded to its request. -/
theorem decodeRequest_uidKeyJson (hexUid hexKey : Bytes) :
    decodeRequest (uidKeyJson hexUid hexKey) =
      some { type := "UID_KEY", uid := hexUid, otAK := hexKey } := by
  rw [uidKeyJson, decodeRequest_object]
  simp

/-- The JSON of a written card is decoded to its request. -/
theorem decodeRequest_newCardKeyJson (hexUid hexKey : Bytes) :
    decodeRequest (newCardKeyJson hexUid hexKey) =
      some { type := "New_Card_Key", uid := hexUid, newOtAK := hexKey } := by
  rw [newCardKeyJson, decodeRequest_object]
  simp

/-- A message for `/json` is a request with the JSON it carries. -/
theorem httpRequest_post {m : Message} (method : m.method = utf8 "POST")
    (target : m.target = utf8 "/json") :
    httpRequest m = ⟨"/json", "POST", [], decodeRequest m.body⟩ := by
  have read : (textOf ((utf8 "/json").takeWhile (· ≠ 63))).getD "" = "/json" ∧
      (textOf (utf8 "POST")).getD "" = "POST" ∧
      (queryGet (utf8 "UID") (utf8 "/json")).getD [] = [] := by decide
  simp only [httpRequest, method, target, read.1, read.2.1, read.2.2]

/-- What is read of a reader's message is the request of the reader. -/
theorem httpRequest_message (env : Env) (r : Reader) :
    (r.message).map httpRequest = (r.request env).map Call.request := by
  unfold Reader.message Reader.request
  cases r.stage with
  | sendUidKey =>
    simp only [Option.map_some]
    rw [httpRequest_post rfl rfl]
    exact congrArg (fun body => some (HttpRequest.mk "/json" "POST" [] body))
      (decodeRequest_uidKeyJson ..)
  | sendNewCardKey =>
    simp only [Option.map_some]
    rw [httpRequest_post rfl rfl]
    exact congrArg (fun body => some (HttpRequest.mk "/json" "POST" [] body))
      (decodeRequest_newCardKeyJson ..)
  | sendOpen =>
    have read : httpRequest heartbeatMessage = ⟨"/OPEN", "HEAD", [], none⟩ := by decide
    exact congrArg some read
  | _ => rfl

/--
Of what a reader writes, the server serves the requests that have arrived as a whole, and no others.

The requests it serves are those of the places of `https_request` where they were written.
-/
theorem requests_arrive (env : Env) (rs : List Reader) (count : Nat) :
    arrivedRequests ((rs.flatMap Reader.requestText).take count) =
      (fitting (fun r => r.requestText.length) count rs).filterMap
        fun r => (r.request env).map Call.request := by
  -- The readers that write nothing are passed over on both sides.
  have stream : rs.flatMap Reader.requestText =
      (rs.filterMap Reader.message).flatMap Message.bytes := by
    induction rs with
    | nil => rfl
    | cons r rs ih =>
      rw [List.flatMap_cons, requestText_eq, ih]
      cases sends : r.message with
      | none =>
        rw [List.filterMap_cons_none sends]
        rfl
      | some m =>
        rw [List.filterMap_cons_some sends]
        rfl
  have well : ∀ m ∈ rs.filterMap Reader.message, m.WellFormed := by
    intro m listed
    obtain ⟨r, -, sends⟩ := List.mem_filterMap.mp listed
    exact Reader.message_wellFormed sends
  have sizes (r : Reader) :
      r.requestText.length = ((r.message).map fun m => m.bytes.length).getD 0 := by
    rw [requestText_eq]
    cases r.message with
    | none => rfl
    | some m => rfl
  rw [arrivedRequests, stream, arrivedMessages_take well, ← fitting_filterMap sizes,
    List.map_filterMap]
  exact congrArg (List.filterMap · _) (funext fun r => httpRequest_message env r)

/-- `content`: the address in the code that the server's terminal shows for a card. -/
def loginAddress (reqUid : Bytes) : Bytes :=
  utf8 "https://" ++ utf8 "192.168.153.15" ++ utf8 "?UID=" ++ reqUid

/-- What `sendPasswordJSON` posts from the page at an address. -/
def loginJson (address password totp : Bytes) : Bytes :=
  jsonObject [(utf8 "type", some (utf8 "Password")), (utf8 "PW", some password),
    (utf8 "TOTP", some totp), (utf8 "UID", queryGet (utf8 "UID") address)]

/-- Bytes in hexadecimal are the same inside an address. -/
theorem bytesToHexString_unreserved (bytes : Bytes) : Unreserved (bytesToHexString bytes) := by
  intro byte written
  have digit := isHexDigit_of_mem_hexEncode written
  refine ⟨?_, ?_, ?_, ?_, ?_, ?_⟩
  all_goals
    intro same
    rw [same] at digit
    exact absurd digit (by decide)

/-- The address of a card's login page names the card. -/
theorem queryGet_loginAddress (bytes : Bytes) :
    queryGet (utf8 "UID") (loginAddress (bytesToHexString bytes)) =
      some (bytesToHexString bytes) := by
  have front : loginAddress (bytesToHexString bytes) =
      utf8 "https://192.168.153.15" ++
        63 :: (utf8 "UID" ++ 61 :: (bytesToHexString bytes ++ [])) := by
    have parts : utf8 "https://" ++ utf8 "192.168.153.15" ++ utf8 "?UID=" =
        utf8 "https://192.168.153.15" ++ 63 :: (utf8 "UID" ++ [61]) := by decide
    rw [loginAddress, parts]
    simp
  rw [front]
  exact queryGet_first (by decide) (by decide) (bytesToHexString_unreserved bytes)
    (by simp) (by simp)

/-- The JSON of the login page is decoded to the request of a login. -/
theorem decodeRequest_loginJson (uid : Bytes) (password totp : Bytes) :
    decodeRequest (loginJson (loginAddress (bytesToHexString uid)) password totp) =
      some { type := "Password", uid := bytesToHexString uid, password, totp } := by
  rw [loginJson, queryGet_loginAddress, decodeRequest_object]
  simp

/--
The page that the code for a new key leads to logs in for the card the key was written to.

Whatever is typed into it is what the server is asked about, and half a request asks nothing.
-/
theorem login_names_card {env : Env} {r : Reader} {call : Call} {req : Request}
    (announced : r.stage = .sendNewCardKey) (asks : r.request env = some call)
    (shown : call.json = some req) (password totp : String) {m : Message} (well : m.WellFormed)
    (method : m.method = utf8 "POST") (target : m.target = utf8 "/json")
    (body : m.body = loginJson (loginAddress req.uid) (utf8 password) (utf8 totp)) :
    arrivedRequests m.bytes =
        [(passwordCall env r.uid.toList (utf8 password) (utf8 totp)).request] ∧
      ∀ count < m.bytes.length, arrivedRequests (m.bytes.take count) = [] := by
  have named : req.uid = bytesToHexString r.uid.toList := by
    rw [Reader.request, announced] at asks
    obtain rfl := Option.some.inj asks
    rw [newCardKeyCall, jsonCall_json] at shown
    obtain rfl := Option.some.inj shown
    rfl
  have each : ∀ other ∈ [m], other.WellFormed := by simpa using well
  have arrives := arrivedMessages_take each
  simp only [List.flatMap_singleton] at arrives
  constructor
  · have whole := arrives m.bytes.length
    rw [List.take_length] at whole
    rw [arrivedRequests, whole, fitting, if_pos le_rfl, fitting, List.map_singleton,
      httpRequest_post method target, body, named, decodeRequest_loginJson]
    rfl
  · intro count part
    rw [arrivedRequests, arrives, fitting, if_neg (by omega)]
    rfl

/-- Bob logs in from the page of his own card. -/
theorem login_names_card_bob :
    arrivedRequests (postMessage (loginJson (loginAddress (bytesToHexString bobUid.toList))
        (utf8 "a \"b\"") (utf8 "012345"))).bytes =
        [(passwordCall quietEnv bobUid.toList (utf8 "a \"b\"") (utf8 "012345")).request] ∧
      ∀ count < (postMessage (loginJson (loginAddress (bytesToHexString bobUid.toList))
          (utf8 "a \"b\"") (utf8 "012345"))).bytes.length,
        arrivedRequests ((postMessage (loginJson (loginAddress (bytesToHexString bobUid.toList))
          (utf8 "a \"b\"") (utf8 "012345"))).bytes.take count) = [] :=
  @login_names_card quietEnv { Reader.start with stage := .sendNewCardKey, uid := bobUid } _ _
    rfl rfl rfl "a \"b\"" "012345" _ (postMessage_wellFormed _) rfl rfl rfl

end Rfid
