import RfidEncryption.Server.Clients

/-! What the server does with a request whose hexadecimal fields are malformed. -/

namespace Rfid

open Reactive

/-- The hexadecimal fields the branch of a request decodes. -/
def Request.hexFields (req : Request) : List Bytes :=
  if req.type = "Password" then [req.uid]
  else if req.type = "UID_KEY" then [req.uid, req.otAK]
  else if req.type = "New_Card_Key" then [req.uid, req.newOtAK]
  else []

/-- A request of which a field its branch decodes is not an even number of hexadecimal digits. -/
def Request.Malformed (req : Request) : Prop := ∃ text ∈ req.hexFields, ¬ Text.IsHex text

instance : DecidablePred Request.Malformed :=
  fun req => inferInstanceAs (Decidable (∃ text ∈ req.hexFields, ¬ Text.IsHex text))

section
variable (crypto : Crypto) (env : Env) (s : Server) (req : Request)

/-- What `handleJSON` answers, before a page is appended to it. -/
def jsonReply : Reply := (handleJSON crypto env s {} (some req) []).2.finish

/--
Whether the branch of a request accepts it.

A login is accepted without a text, the two requests of the reader with one.
A new key that is ignored is answered without that text.
-/
def Accepts : Prop :=
  (jsonReply crypto env s req).status = .ok ∧
    (req.type = "Password" ∨ (jsonReply crypto env s req).body = utf8 "IS_OK:OK")

instance : Decidable (Accepts crypto env s req) := inferInstanceAs (Decidable (_ ∧ _))

/-- A request is accepted when the checks of its branch succeed. -/
theorem accepts_iff :
    Accepts crypto env s req ↔
      if req.type = "Password" then passwordPasses crypto env s req = true
      else if req.type = "UID_KEY" then uidKeyMatches crypto env s req = true
      else if req.type = "New_Card_Key" then s.checker = true ∧ env.execFails = false
      else False := by
  -- The texts a fresh writer is given tell success from failure.
  have ok : (writeOK {}).finish = ⟨.ok, ⟨some "text/plain", none⟩, utf8 "IS_OK:OK"⟩ := rfl
  have failed : ∀ message, (({} : ResponseWriter).error message .badRequest).finish.status =
    .badRequest := fun _ => rfl
  have refused : ∀ message, (writeNO {} message).finish.status = .badRequest := fun _ => rfl
  have silent : ({} : ResponseWriter).finish = ⟨.ok, {}, []⟩ := rfl
  have text : ([] : Bytes) ≠ utf8 "IS_OK:OK" := by decide
  unfold Accepts jsonReply handleJSON
  by_cases password : req.type = "Password"
  · simp only [password, if_true, handlePassword_writer, passwordPasses]
    split_ifs <;> simp_all
  · by_cases uidKey : req.type = "UID_KEY"
    · simp only [uidKey, String.reduceEq, if_false, if_true, handleUidKey_writer]
      split_ifs <;> simp_all
    · by_cases newCardKey : req.type = "New_Card_Key"
      · simp only [newCardKey, String.reduceEq, if_false, if_true, handleNewCardKey_writer,
          databaseUpdater]
        split_ifs <;> simp_all
      · simp [password, uidKey, newCardKey, failed]

/-- A malformed request is not accepted and leaves the table and both flags as they were. -/
def RejectsMalformed (call : Call) : Prop :=
  ∀ req, call.json = some req → req.Malformed →
    ¬ Accepts crypto call.env s req ∧ ((server crypto).next s call).cards = s.cards ∧
      ((server crypto).next s call).checker = s.checker ∧
      ((server crypto).next s call).passing = s.passing

/--
What the decoded bytes of a request must not be for it to have no effect.

The bytes before the first malformed digit are used as if they were the whole field.
So they must not name the row of a user whose password and one-time password are given.
They must not be registered, and must not be a card and its key.
A new key is ignored without a card session, or refused when the statement fails.
-/
def NoEffect : Prop :=
  if req.type = "Password" then
    ∀ card, selectCard s.cards (hexBytes req.uid) = some card →
      hashOf crypto req.password = card.hashedPassword →
      req.totp ≠ generateTOTPWithSHA256 crypto card.totpSecretKey 30 env.now
  else if req.type = "UID_KEY" then
    s.testOnce = false ∧ ∀ card, selectCard s.cards (hexBytes req.uid) = some card →
      hexBytes req.otAK ≠ if env.scanFails then [] else card.keyThisTime
  else s.checker = true → env.execFails = true

/-- The decoded bytes of a request have no effect when the checks of its branch fail. -/
theorem noEffect_iff :
    NoEffect crypto env s req ↔
      if req.type = "Password" then ¬ passwordPasses crypto env s req = true
      else if req.type = "UID_KEY" then
        s.testOnce = false ∧ ¬ uidKeyMatches crypto env s req = true
      else s.checker = true → env.execFails = true := by
  unfold NoEffect
  by_cases password : req.type = "Password"
  · -- Both checks of a login look at the same row.
    simp only [password, if_true, passwordPasses, decide_eq_true_eq, databaseChecker_password,
      databaseChecker_totp]
    constructor
    · intro strange passes
      obtain ⟨⟨card, found, hash⟩, other, again, totp⟩ := passes
      obtain rfl := Option.some.inj (found.symm.trans again)
      exact strange card found hash totp
    · intro fails card found hash totp
      exact fails ⟨⟨card, found, hash⟩, card, found, totp⟩
  · by_cases uidKey : req.type = "UID_KEY"
    · -- Once a card was registered, no row is added before the check.
      simp only [uidKey, String.reduceEq, if_false, if_true]
      refine and_congr_right fun registered => ?_
      simp [uidKeyMatches, testRegister, registered, databaseChecker_key]
    · simp only [password, uidKey, if_false]

/--
A malformed request is rejected without effect exactly when its decoded bytes have none.

No branch looks at the error of the decoder.
-/
theorem rejectsMalformed_iff (call : Call) :
    RejectsMalformed crypto s call ↔
      ∀ req, call.json = some req → req.Malformed → NoEffect crypto call.env s req := by
  refine forall_congr' fun req => imp_congr_right fun carried => imp_congr_right fun malformed => ?_
  -- A call that carries a request does not ask for the door.
  have notOpen : ¬ call.IsOpen := by
    intro asked
    simp [asked.json] at carried
  rw [accepts_iff, serve_state, if_neg notOpen, carried, noEffect_iff]
  simp only [Option.elim_some, jsonNext]
  by_cases password : req.type = "Password"
  · -- A login that fails is only counted.
    simp only [password, if_true]
    cases passwordPasses crypto call.env s req <;> simp
  · by_cases uidKey : req.type = "UID_KEY"
    · simp only [uidKey, String.reduceEq, if_false, if_true]
      cases first : s.testOnce with
      | true =>
        -- The first card of a process is registered whatever its bytes are.
        have grown : (testRegister crypto call.env s req).cards ≠ s.cards := by
          simp [testRegister, testing, first, databaseRegister]
        split_ifs <;> simp [grown]
      | false =>
        have same : testRegister crypto call.env s req = s := by simp [testRegister, first]
        rw [same]
        cases uidKeyMatches crypto call.env s req <;> simp
    · by_cases newCardKey : req.type = "New_Card_Key"
      · -- The statement is accepted even where it replaces the key by itself.
        simp only [newCardKey, String.reduceEq, if_false, if_true, databaseUpdater]
        cases s.checker <;> cases call.env.execFails <;> simp
      · -- No other request has a field that is decoded.
        simp [Request.Malformed, Request.hexFields, password, uidKey, newCardKey] at malformed

end

/-- Alice logs in under her identifier with a stray digit behind it. -/
theorem malformed_login_passes :
    ¬ ∀ (cards : Cards) (run : List Call) (call : Call),
      RejectsMalformed Crypto.standard
        ((server Crypto.standard).after (Server.start cards) run) call := by
  intro rejects
  let req : Request :=
    { type := "Password", uid := bytesToHexString alice ++ utf8 "0",
      password := utf8 "open sesame", totp := utf8 "247374" }
  have refused := rejects twoCards [] (jsonCall quietEnv req) req rfl (by decide)
  -- The decoder returns the bytes before the stray digit.
  exact absurd refused.2.2.2 (by decide +kernel)

end Rfid
