import RfidEncryption.Server.Verdict

/-! The requests the reader and the login page send, and what the server decides about them. -/

namespace Rfid

/-- A JSON request posted to `/json`. -/
def jsonCall (env : Env) (req : Request) : Call := ⟨env, ⟨"/json", "POST", [], some req⟩⟩

/-- The JSON of a card and the key that was read from it. -/
def uidKeyRequest (uid key : Bytes) : Request :=
  { type := "UID_KEY", uid := bytesToHexString uid, otAK := bytesToHexString key }

/-- The first request of `https_request`. -/
def uidKeyCall (env : Env) (uid key : Bytes) : Call := jsonCall env (uidKeyRequest uid key)

/-- The second request of `https_request`: the key that was written to the card. -/
def newCardKeyCall (env : Env) (uid key : Bytes) : Call :=
  jsonCall env
    { type := "New_Card_Key", uid := bytesToHexString uid, newOtAK := bytesToHexString key }

/-- The request `https_request` repeats until the door may open. -/
def openCall (env : Env) : Call := ⟨env, ⟨"/OPEN", "HEAD", [], none⟩⟩

/-- The request of the login page. -/
def passwordCall (env : Env) (uid password totp : Bytes) : Call :=
  jsonCall env { type := "Password", uid := bytesToHexString uid, password, totp }

/-- Bytes printed by the reader are the bytes the server decodes. -/
@[simp] theorem hexBytes_bytesToHexString (bytes : Bytes) :
    hexBytes (bytesToHexString bytes) = bytes := by
  simp [hexBytes, bytesToHexString]

section
variable (env : Env) (req : Request) (uid key password totp : Bytes)

@[simp] theorem jsonCall_env : (jsonCall env req).env = env := rfl

@[simp] theorem jsonCall_json : (jsonCall env req).json = some req := rfl

@[simp] theorem jsonCall_not_isOpen : ¬ (jsonCall env req).IsOpen := by
  simp [Call.IsOpen, jsonCall]

@[simp] theorem openCall_isOpen : (openCall env).IsOpen := rfl

end

section
variable (crypto : Crypto) (s : Server) (env : Env) (uid key password totp : Bytes)

@[simp] theorem verdict_openCall : verdict crypto s (openCall env) = .poll := rfl

/-- A presented card is recognised or ignored. -/
theorem verdict_uidKeyCall :
    verdict crypto s (uidKeyCall env uid key) =
      if uidKeyMatches crypto env s (uidKeyRequest uid key) then .card uid else .other := by
  -- The server decodes what the reader printed.
  have type : (uidKeyRequest uid key).type = "UID_KEY" := rfl
  have named : hexBytes (uidKeyRequest uid key).uid = uid := hexBytes_bytesToHexString uid
  simp [verdict, uidKeyCall, type, named]

/-- A new key is no event at the latch. -/
@[simp] theorem verdict_newCardKeyCall :
    verdict crypto s (newCardKeyCall env uid key) = .other := by
  -- The type is none of those with a verdict.
  simp [verdict, newCardKeyCall]

/-- A login succeeds or fails. -/
theorem verdict_passwordCall :
    verdict crypto s (passwordCall env uid password totp) =
      if passwordPasses crypto env s
        { type := "Password", uid := bytesToHexString uid, password, totp }
      then .login uid else .failure := by
  -- The server decodes the identifier of the login page.
  simp [verdict, passwordCall]

/-- A login without a one-time password always fails. -/
theorem verdict_no_totp : verdict crypto s (passwordCall env uid password []) = .failure := by
  -- No generated password is empty.
  rw [verdict_passwordCall, if_neg]
  simp only [passwordPasses, decide_eq_true_eq, databaseChecker_totp]
  intro passes
  obtain ⟨-, card, -, empty⟩ := passes
  exact generateTOTPWithSHA256_ne_nil crypto _ _ _ empty.symm

/-- Once a card was registered for testing, a card is recognised by the key of its row. -/
theorem verdict_enrolled {card : Card} (registered : s.testOnce = false)
    (steady : env.scanFails = false) (found : selectCard s.cards uid = some card) :
    verdict crypto s (uidKeyCall env uid card.keyThisTime) = .card uid := by
  -- No row is registered, so the card's own row is compared.
  rw [verdict_uidKeyCall, if_pos]
  simp only [uidKeyRequest, uidKeyMatches, testRegister, registered, Bool.and_false,
    Bool.false_eq_true, if_false, hexBytes_bytesToHexString, decide_eq_true_eq, databaseChecker_key]
  exact ⟨card, found, by simp [steady]⟩

/-- The first card presented to a process is registered, and recognised unless it has a row. -/
theorem verdict_first (first : s.testOnce = true) (steady : env.scanFails = false)
    (fits : ∀ card, selectCard s.cards uid = some card → key = card.keyThisTime) :
    verdict crypto s (uidKeyCall env uid key) = .card uid := by
  -- The registered row is found behind the rows that were there.
  rw [verdict_uidKeyCall, if_pos]
  simp only [uidKeyRequest, uidKeyMatches, testRegister, testing, first, Bool.and_self, if_true,
    steady, hexBytes_bytesToHexString, decide_eq_true_eq, databaseChecker_key, selectCard_register]
  cases found : selectCard s.cards uid with
  | none => exact ⟨_, rfl, rfl⟩
  | some card => exact ⟨card, rfl, fits card found⟩

end

/-! A table and a moment to run requests at. -/

/-- A moment at which the database works and no file is served. -/
def quietEnv : Env where
  now := 59
  secret := "JBSWY3DPEHPK3PXP"
  numberText text := text
  date := ⟨4, 1, 0, 1970, 0, 0, 59⟩
  files _ := none
  scanFails := false
  execFails := false

/-- A row whose password is `open sesame`. -/
def enrolledCard (uid key : Bytes) : Card where
  uid := uid
  hashedPassword := hashOf Crypto.standard (utf8 "open sesame")
  keyThisTime := key
  keyLastTime := key
  totpSecretKey := "GEZDGNBVGY3TQOJQGEZDGNBVGY3TQOJQ"

/-- The login of a row's user at the quiet moment. -/
def loginCall (uid : Bytes) : Call :=
  passwordCall quietEnv uid (utf8 "open sesame") (utf8 "247374")

/-- The login of a user who has forgotten the one-time password. -/
def failedLoginCall (uid : Bytes) : Call := passwordCall quietEnv uid (utf8 "open sesame") []

/-- Alice's card. -/
def aliceUid : Uid := #v[4, 161, 1, 1, 1, 1, 129]

/-- Bob's card. -/
def bobUid : Uid := #v[4, 178, 2, 2, 2, 2, 130]

/-- The keys the cards hold at first. -/
def firstKey (uid : Uid) : CardKey := Vector.replicate 15 (uid.get 1)

/-- Alice's card, as the table names it. -/
def alice : Bytes := aliceUid.toList

/-- Bob's card, as the table names it. -/
def bob : Bytes := bobUid.toList

/-- The key of Alice's row. -/
def aliceKey : Bytes := (firstKey aliceUid).toList

/-- The key of Bob's row. -/
def bobKey : Bytes := (firstKey bobUid).toList

/-- A table of two cards. -/
def twoCards : Cards := [enrolledCard alice aliceKey, enrolledCard bob bobKey]

end Rfid
