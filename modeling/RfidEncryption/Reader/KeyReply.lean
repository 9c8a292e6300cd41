import RfidEncryption.Reader.Request
import RfidEncryption.Server.Malformed
import RfidEncryption.Server.Replies
import RfidEncryption.Server.Store

/-! What the server replies to a new key, and whether the table holds that key afterwards. -/

namespace Rfid

open Reactive

/-- The text that tells the reader of a stored key. -/
def storedText : Bytes := utf8 "IS_OK:OK"

/-- The only text by which the reader notices that a key was not stored. -/
def refusedText : Bytes := utf8 "IS_OK:NO"

section
variable (crypto : Crypto) (env : Env) (s : Server) (call : Call) (req : Request)

/-- A request stores a key when its statement is run and a row of the card holds the key then. -/
def Stores (uid key : Bytes) : Prop :=
  installs s call = some (uid, key) ∧
    ∃ card ∈ ((server crypto).next s call).cards, card.uid = uid ∧ card.keyThisTime = key

/--
The reply to a well-formed new key tells of success exactly when the key is stored.

Otherwise it tells of the failure, and a reader that has posted the key to `/json` gives up.
-/
def TellsTruth : Prop :=
  ∀ req, call.json = some req → req.type = "New_Card_Key" → ¬ req.Malformed →
    (storedText <:+: (jsonReply crypto call.env s req).body ↔
      Stores crypto s call (hexBytes req.uid) (hexBytes req.newOtAK)) ∧
    (¬ Stores crypto s call (hexBytes req.uid) (hexBytes req.newOtAK) →
      refusedText <:+: (jsonReply crypto call.env s req).body ∧
        (call.request.path = "/json" → ∀ (r : Reader) (date : HttpDate),
          r.stage = .recvNewCardKey →
            (r.received (((server crypto).answer s call).bytes false date)).stage =
              .returned false))

/--
A well-formed new key arrives in a card session, for a card that has a row.

For a card without a row only a statement that fails is answered as it should be.
-/
def NewKeyExpected : Prop :=
  ∀ req, call.json = some req → req.type = "New_Card_Key" → ¬ req.Malformed →
    s.checker = true ∧
      (call.env.execFails = true ∨ ∃ card ∈ s.cards, card.uid = hexBytes req.uid)

/-- Nothing is appended to what `handleJSON` answers at `/json`. -/
theorem answer_json {call : Call} (path : call.request.path = "/json")
    (carried : call.json = some req) :
    (server crypto).answer s call = jsonReply crypto call.env s req := by
  -- The request was posted, or it would not have been handed on.
  have posted : call.request.method = "POST" ∧ call.request.body = some req := by
    simpa [Call.json, path] using carried
  simp [Machine.answer, server, serve, pathHandler, path, posted, jsonReply]

/-- The reply to a new key is empty without a card session, or says how the statement ended. -/
theorem jsonReply_newCardKey (newCardKey : req.type = "New_Card_Key") :
    jsonReply crypto env s req =
      if s.checker then
        if env.execFails then (writeNO {} "Write key wrong").finish else (writeOK {}).finish
      else ({} : ResponseWriter).finish := by
  -- The error of the statement is the only one the updater returns.
  simp only [jsonReply, handleJSON, newCardKey, String.reduceEq, if_false, if_true,
    handleNewCardKey_writer, databaseUpdater]
  cases s.checker with
  | false => rfl
  | true => cases env.execFails <;> rfl

/-- The text of success is written when the statement ran, whatever it found. -/
theorem storedText_iff (newCardKey : req.type = "New_Card_Key") :
    storedText <:+: (jsonReply crypto env s req).body ↔
      s.checker = true ∧ env.execFails = false := by
  rw [jsonReply_newCardKey crypto env s req newCardKey]
  -- Of the three bodies only one holds the text.
  have ok : storedText <:+: (writeOK {}).finish.body := List.infix_rfl
  have no : ¬ storedText <:+: (writeNO {} "Write key wrong").finish.body := by decide
  have silent : ¬ storedText <:+: ({} : ResponseWriter).finish.body := by decide
  split_ifs with session fails
  · simp [no, fails]
  · simp [ok, session, fails]
  · simp [silent, session]

/-- The text of failure is written when the statement failed. -/
theorem refusedText_iff (newCardKey : req.type = "New_Card_Key") :
    refusedText <:+: (jsonReply crypto env s req).body ↔
      s.checker = true ∧ env.execFails = true := by
  rw [jsonReply_newCardKey crypto env s req newCardKey]
  -- It ends one of the three bodies.
  have no : refusedText <:+: (writeNO {} "Write key wrong").finish.body := by decide
  have ok : ¬ refusedText <:+: (writeOK {}).finish.body := by decide
  have silent : ¬ refusedText <:+: ({} : ResponseWriter).finish.body := by decide
  split_ifs with session fails
  · simp [no, session, fails]
  · simp [ok, fails]
  · simp [silent, session]

/-- A key is stored in a card session when the card has a row and the statement does not fail. -/
theorem stores_iff {call : Call} (carried : call.json = some req)
    (newCardKey : req.type = "New_Card_Key") :
    Stores crypto s call (hexBytes req.uid) (hexBytes req.newOtAK) ↔
      s.checker = true ∧ call.env.execFails = false ∧
        ∃ card ∈ s.cards, card.uid = hexBytes req.uid := by
  have named : newKey call = some (hexBytes req.uid, hexBytes req.newOtAK) := by
    simp [newKey, carried, newCardKey]
  unfold Stores
  by_cases run : s.checker = true ∧ call.env.execFails = false
  · have installed : installs s call = some (hexBytes req.uid, hexBytes req.newOtAK) := by
      rw [installs, if_pos run, named]
    -- The statement goes through the rows that were there, and adds none.
    have rows : ((server crypto).next s call).cards =
        install s.cards (hexBytes req.uid) (hexBytes req.newOtAK) := by
      rw [serve_cards, installed]
      cases enrolled : enrols crypto s call with
      | none => rfl
      | some row => simp [installs_of_enrols crypto s call enrolled] at installed
    rw [rows]
    constructor
    · intro stored
      obtain ⟨-, card, listed, uid, -⟩ := stored
      obtain ⟨old, before, rfl⟩ := List.mem_map.mp listed
      refine ⟨run.1, run.2, old, before, ?_⟩
      -- No row changes its card.
      split_ifs at uid with same
      · exact same
      · exact uid
    · intro known
      obtain ⟨-, -, card, listed, uid⟩ := known
      refine ⟨installed, card.rotate (hexBytes req.newOtAK), ?_, uid, rfl⟩
      exact List.mem_map.mpr ⟨card, listed, if_pos uid⟩
  · have kept : installs s call = none := by rw [installs, if_neg run]
    constructor
    · intro stored
      simp [kept] at stored
    · intro known
      exact absurd ⟨known.1, known.2.1⟩ run

/-- The letters between the digits of the head of a reply, apart from the values of its fields. -/
def headLetters : Bytes :=
  utf8 ("HTTP/1.1 OK Bad Request Unauthorized Not Found Method Not Allowed" ++
    "Content-Type: X-Content-Type-Options: Date: Content-Length: " ++
    "SunMonTueWedThuFriSatJanFebMarAprMayJunJulAugSepOctNovDec, :GMT")

/-- A line of the head consists of digits, those letters, and the values of its fields. -/
theorem mem_line {reply : Reply} {head : Bool} {date : HttpDate} {line : Bytes} {byte : UInt8}
    (listed : line ∈ reply.lines head date) (inside : byte ∈ line) :
    48 ≤ byte ∧ byte ≤ 57 ∨ byte ∈ headLetters ∨
      (∃ value ∈ reply.header.contentType, byte ∈ utf8 value) ∨
        ∃ value ∈ reply.header.xContentTypeOptions, byte ∈ utf8 value := by
  have names : ∀ text ∈ ["HTTP/1.1 ", "Content-Type: ", "X-Content-Type-Options: ", "Date: ",
      "Content-Length: "], ∀ letter ∈ utf8 text,
        48 ≤ letter ∧ letter ≤ 57 ∨ letter ∈ headLetters := by decide +kernel
  have dates : utf8 "SunMonTueWedThuFriSatJanFebMarAprMayJunJulAugSepOctNovDec, :GMT" ⊆
      headLetters := by decide
  have numbers : ∀ status : Status, ∀ letter ∈ utf8 status.text,
      48 ≤ letter ∧ letter ≤ 57 ∨ letter ∈ headLetters := by
    intro status
    cases status <;> decide +kernel
  simp only [Reply.lines, List.mem_append, List.mem_singleton, Option.mem_toList,
    Option.map_eq_some_iff] at listed
  -- Every line is a name and a value behind it.
  rcases listed with (((rfl | ⟨value, set, rfl⟩) | ⟨value, set, rfl⟩) | rfl) | length
  · rcases List.mem_append.mp inside with named | status
    · exact (names _ (by simp) _ named).imp_right .inl
    · exact (numbers _ _ status).imp_right .inl
  · rcases List.mem_append.mp inside with named | field
    · exact (names _ (by simp) _ named).imp_right .inl
    · exact .inr (.inr (.inl ⟨value, set, field⟩))
  · rcases List.mem_append.mp inside with named | field
    · exact (names _ (by simp) _ named).imp_right .inl
    · exact .inr (.inr (.inr ⟨value, set, field⟩))
  · rcases List.mem_append.mp inside with named | stamp
    · exact (names _ (by simp) _ named).imp_right .inl
    · exact (mem_date_text stamp).imp_right fun letter => .inl (dates letter)
  · split_ifs at length
    · simp at length
    · obtain rfl := List.mem_singleton.mp length
      rcases List.mem_append.mp inside with named | digit
      · exact (names _ (by simp) _ named).imp_right .inl
      · exact .inl (mem_decimal digit)

/-- A reader that waits for the reply gives up when the text of failure is in what it reads. -/
theorem received_gives_up {r : Reader} {buf : Bytes} (waits : r.stage = .recvNewCardKey) :
    (r.received buf).stage = .returned false ↔ Text.strstr buf refusedText = true := by
  simp only [Reader.received, waits]
  rw [show utf8 "IS_OK:NO" = refusedText from rfl]
  split_ifs with found
  · simp [found]
  · simp [found]

/-- A letter that is in no fixed part and in no field of the head is in no line of it. -/
theorem not_mem_line {reply : Reply} {head : Bool} {date : HttpDate} {line : Bytes} {letter : UInt8}
    (listed : line ∈ reply.lines head date) (strange : ¬ (48 ≤ letter ∧ letter ≤ 57))
    (unnamed : letter ∉ headLetters)
    (fields : ∀ value, value ∈ reply.header.contentType ∨ value ∈ reply.header.xContentTypeOptions →
      letter ∉ utf8 value) : letter ∉ line := by
  intro inside
  rcases mem_line listed inside with digit | named | ⟨value, set, field⟩ | ⟨value, set, field⟩
  · exact strange digit
  · exact unnamed named
  · exact fields value (.inl set) field
  · exact fields value (.inr set) field

/-- The text of failure is found in a plain reply exactly when it is in the body. -/
theorem strstr_bytes {reply : Reply} {date : HttpDate}
    (fields : ∀ value, value ∈ reply.header.contentType ∨ value ∈ reply.header.xContentTypeOptions →
      (0 : UInt8) ∉ utf8 value ∧ (95 : UInt8) ∉ utf8 value)
    (body : (0 : UInt8) ∉ reply.body) :
    Text.strstr (reply.bytes false date) refusedText = true ↔ refusedText <:+: reply.body := by
  -- Neither the underscore of the text nor a zero byte occurs in the head.
  have plain : ∀ line ∈ reply.lines false date, (0 : UInt8) ∉ line ∧ (95 : UInt8) ∉ line := by
    intro line listed
    constructor
    · exact not_mem_line listed (by decide) (by decide) fun value set => (fields value set).1
    · exact not_mem_line listed (by decide) (by decide) fun value set => (fields value set).2
  have clean : (0 : UInt8) ∉ reply.bytes false date := by
    intro listed
    simp only [Reply.bytes, Bool.false_eq_true, if_false, List.mem_append, List.mem_flatMap,
      List.mem_singleton] at listed
    rcases listed with ⟨line, ofHead | rfl, (inside | zero) | zero⟩ | inside
    · exact (plain line ofHead).1 inside
    all_goals simp_all
  rw [Text.strstr_iff_infix clean, infix_bytes (by decide) (by decide)]
  refine or_iff_right ?_
  -- A line would have to hold the underscore.
  intro found
  obtain ⟨line, listed, found⟩ := found
  exact (plain line listed).2 (found.subset (by decide))

/-- A reader that waits for the reply to a new key gives up when its body tells of the failure. -/
theorem gives_up_iff {r : Reader} (date : HttpDate) (waits : r.stage = .recvNewCardKey)
    (newCardKey : req.type = "New_Card_Key") :
    (r.received ((jsonReply crypto env s req).bytes false date)).stage = .returned false ↔
      refusedText <:+: (jsonReply crypto env s req).body := by
  rw [received_gives_up waits]
  -- The three replies are plain.
  have plain : ∀ reply ∈ [(writeNO {} "Write key wrong").finish, (writeOK {}).finish,
      ({} : ResponseWriter).finish],
      (∀ value ∈ reply.header.contentType.toList ++ reply.header.xContentTypeOptions.toList,
        (0 : UInt8) ∉ utf8 value ∧ (95 : UInt8) ∉ utf8 value) ∧ (0 : UInt8) ∉ reply.body := by
    decide
  have listed : jsonReply crypto env s req ∈ [(writeNO {} "Write key wrong").finish,
      (writeOK {}).finish, ({} : ResponseWriter).finish] := by
    rw [jsonReply_newCardKey crypto env s req newCardKey]
    split_ifs <;> simp
  obtain ⟨fields, body⟩ := plain _ listed
  exact strstr_bytes (fun value set => fields value (by simpa using set)) body

/-- The reply to a new key tells the truth exactly when the key is expected. -/
theorem tellsTruth_iff (call : Call) : TellsTruth crypto s call ↔ NewKeyExpected s call := by
  refine forall_congr' fun req => imp_congr_right fun carried => imp_congr_right fun newCardKey =>
    imp_congr_right fun _ => ?_
  rw [storedText_iff crypto call.env s req newCardKey, stores_iff crypto s req carried newCardKey,
    refusedText_iff crypto call.env s req newCardKey]
  constructor
  · intro truth
    obtain ⟨told, refused⟩ := truth
    by_cases stored : s.checker = true ∧ call.env.execFails = false ∧
        ∃ card ∈ s.cards, card.uid = hexBytes req.uid
    · exact ⟨stored.1, .inr stored.2.2⟩
    · -- A key that is not stored is refused by the statement.
      have failed := (refused stored).1
      exact ⟨failed.1, .inl failed.2⟩
  · intro expected
    obtain ⟨session, decided⟩ := expected
    have told : s.checker = true ∧ call.env.execFails = false ↔ s.checker = true ∧
        call.env.execFails = false ∧ ∃ card ∈ s.cards, card.uid = hexBytes req.uid := by
      cases fails : call.env.execFails with
      | true => simp
      | false => simpa [session, fails] using decided
    refine ⟨told, fun unstored => ?_⟩
    -- In a session only a statement that fails stores nothing.
    have failed : call.env.execFails = true := by
      by_contra runs
      exact unstored (told.mp ⟨session, by simpa using runs⟩)
    refine ⟨⟨session, failed⟩, fun path r date waits => ?_⟩
    rw [answer_json crypto s req path carried,
      gives_up_iff crypto call.env s req date waits newCardKey,
      refusedText_iff crypto call.env s req newCardKey]
    exact ⟨session, failed⟩

/--
Throughout a run the replies to new keys tell the truth exactly when every new key is expected.

The reply is decided by the error of the statement, which does not tell how many rows it found.
Without a card session there is no reply at all.
-/
theorem keyReply_truthful_iff (cards : Cards) (run : List Call) :
    (∀ done call, done ++ [call] <+: run →
      TellsTruth crypto ((server crypto).after (Server.start cards) done) call) ↔
      (server crypto).Along NewKeyExpected (Server.start cards) run := by
  rw [Machine.along_iff_forall]
  exact forall_congr' fun done => forall_congr' fun call => imp_congr_right fun _ =>
    tellsTruth_iff crypto _ call

end

/-- A card nobody has enrolled. -/
def strangerUid : Uid := #v[4, 195, 3, 3, 3, 3, 131]

/-- After Bob's card was accepted, a key for a card without a row is said to be stored. -/
theorem keyReply_untrue :
    ¬ ∀ (cards : Cards) (run done : List Call) (call : Call), done ++ [call] <+: run →
      TellsTruth Crypto.standard ((server Crypto.standard).after (Server.start cards) done)
        call := by
  intro truthful
  have truth := truthful twoCards _ [uidKeyCall quietEnv bob bobKey]
    (newCardKeyCall quietEnv strangerUid.toList bobKey) List.prefix_rfl
  -- The session is Bob's, and no row is found.
  have unexpected : ¬ (∃ card ∈ ((server Crypto.standard).after (Server.start twoCards)
      [uidKeyCall quietEnv bob bobKey]).cards, card.uid = strangerUid.toList) := by decide +kernel
  rw [tellsTruth_iff] at truth
  obtain ⟨-, failed | known⟩ := truth _ rfl rfl (by decide +kernel)
  · exact absurd failed (by decide)
  · rw [hexBytes_bytesToHexString] at known
    exact unexpected known

end Rfid
