import RfidEncryption.Server.OneTime
import RfidEncryption.Server.Store
import RfidEncryption.Text.Base32
import RfidEncryption.Text.Query

/-! The secret a user is given as a QR code, and the logins it is good for. -/

namespace Rfid

open Text

/-- A text whose characters are those of ASCII bytes. -/
def asciiText (bytes : Bytes) : String :=
  String.ofList (bytes.map fun byte => Char.ofNat byte.toNat)

/-- `generateUniqueSecretKey`, for the bytes that were drawn. -/
def generateUniqueSecretKey (bytes : Vector UInt8 20) : String :=
  asciiText (base32Encode bytes.toList)

/-- `url`: what the picture of `generateUniqueQRCode` says. -/
def secretUrl (totpSecretKey : String) : Bytes :=
  utf8 "otpauth://totp/ExampleService:user@example.com?secret=" ++ utf8 totpSecretKey ++
    utf8 "&issuer=ExampleService&algorithm=SHA256"

/-- The values of letters are read back. -/
theorem base32Value_letter {value : UInt8} (small : value < 32) :
    base32Value (base32Letter value) = some value ∧ base32Letter value ≠ 10 ∧
      base32Letter value ≠ 13 ∧ base32Letter value < 128 := by
  -- There are only thirty-two letters to look at.
  have all : ∀ n : Fin 32, base32Value (base32Letter (UInt8.ofNat n)) = some (UInt8.ofNat n) ∧
      base32Letter (UInt8.ofNat n) ≠ 10 ∧ base32Letter (UInt8.ofNat n) ≠ 13 ∧
      base32Letter (UInt8.ofNat n) < 128 := by decide
  have one := all ⟨value.toNat, UInt8.lt_iff_toNat_lt.mp small⟩
  rwa [UInt8.ofNat_toNat] at one

section
variable {value : UInt8} {values quantum : List UInt8}

/-- A letter adds its value to the quantum, which is packed when it is full. -/
theorem base32Decode_letter (small : value < 32) (rest : Bytes) :
    base32Decode quantum (base32Letter value :: rest) =
      if (quantum ++ [value]).length = 8 then
        packQuantum (quantum ++ [value]) ++ base32Decode [] rest
      else base32Decode (quantum ++ [value]) rest := by
  obtain ⟨read, feed, ret, -⟩ := base32Value_letter small
  rw [base32Decode, if_neg (not_or.mpr ⟨feed, ret⟩), read]

/-- The letters of less than a quantum are packed at the end. -/
theorem base32Decode_part (small : ∀ value ∈ values, value < 32)
    (part : quantum.length + values.length < 8) :
    base32Decode quantum (values.map base32Letter) = packQuantum (quantum ++ values) := by
  -- A letter at a time goes from the text to the quantum, which never fills up.
  induction values generalizing quantum with
  | nil => rw [List.map_nil, base32Decode, List.append_nil]
  | cons value values ih =>
    rw [List.length_cons] at part
    have room : (quantum ++ [value]).length ≠ 8 := by
      rw [List.length_append, List.length_singleton]
      omega
    rw [List.map_cons, base32Decode_letter (small value (by simp)), if_neg room,
      ih (fun value listed => small value (by simp [listed])) (by simp; omega), List.append_assoc,
      List.singleton_append]

/-- The letters of a full quantum are packed before the rest is read. -/
theorem base32Decode_full (small : ∀ value ∈ values, value < 32) (filled : values ≠ [])
    (full : quantum.length + values.length = 8) (rest : Bytes) :
    base32Decode quantum (values.map base32Letter ++ rest) =
      packQuantum (quantum ++ values) ++ base32Decode [] rest := by
  -- The quantum fills up with the last of these letters.
  induction values generalizing quantum with
  | nil => exact absurd rfl filled
  | cons value values ih =>
    rw [List.length_cons] at full
    rw [List.map_cons, List.cons_append, base32Decode_letter (small value (by simp))]
    cases values with
    | nil =>
      have last : (quantum ++ [value]).length = 8 := by
        simpa using full
      rw [if_pos last]
      rfl
    | cons next values =>
      have room : (quantum ++ [value]).length ≠ 8 := by
        rw [List.length_cons] at full
        rw [List.length_append, List.length_singleton]
        omega
      rw [if_neg room, ih (fun value listed => small value (by simp [listed])) (by simp)
        (by simp at full ⊢; omega), List.append_assoc, List.singleton_append]

end

/-- Bytes written in base32 are read back. -/
theorem base32Decode_encode (bytes : Bytes) : base32Decode [] (base32Encode bytes) = bytes := by
  have small := base32Values_lt bytes
  -- The cases are those of the encoder: up to four bytes at the end, or five and more.
  induction bytes using base32Values.induct with
  | case1 => rfl
  | case2 a =>
    rw [base32Encode, base32Decode_part small (by simp [base32Values, base32Quantum])]
    show [_] = [a]
    rw [base32_first a 0]
  | case3 a b =>
    rw [base32Encode, base32Decode_part small (by simp [base32Values, base32Quantum])]
    show [_, _] = [a, b]
    rw [base32_first a b, base32_second a b 0]
  | case4 a b c =>
    rw [base32Encode, base32Decode_part small (by simp [base32Values, base32Quantum])]
    show [_, _, _] = [a, b, c]
    rw [base32_first a b, base32_second a b c, base32_third b c 0]
  | case5 a b c d =>
    rw [base32Encode, base32Decode_part small (by simp [base32Values, base32Quantum])]
    show [_, _, _, _] = [a, b, c, d]
    rw [base32_first a b, base32_second a b c, base32_third b c d, base32_fourth c d 0]
  | case6 a b c d e rest ih =>
    -- Five bytes make a full quantum, and the rest is read from an empty one.
    have later := ih (base32Values_lt rest)
    rw [base32Encode, base32Values, List.map_append,
      base32Decode_full (base32Quantum_lt a b c d e) (by simp [base32Quantum]) rfl, ← base32Encode,
      later]
    show [_, _, _, _, _] ++ rest = a :: b :: c :: d :: e :: rest
    rw [base32_first a b, base32_second a b c, base32_third b c d, base32_fourth c d e,
      base32_fifth d e]
    rfl

/-- The bytes of an ASCII text are the ones it was made of. -/
theorem utf8_asciiText {bytes : Bytes} (ascii : ∀ byte ∈ bytes, byte < 128) :
    utf8 (asciiText bytes) = bytes := by
  -- A character below 128 takes one byte, which is its number.
  have one : ∀ n : Fin 128, String.utf8EncodeChar (Char.ofNat n) = [UInt8.ofNat n] := by decide
  have encoded : utf8 (asciiText bytes) =
      (bytes.map fun byte => Char.ofNat byte.toNat).flatMap String.utf8EncodeChar := by
    show (List.utf8Encode _).data.toList = _
    rw [List.utf8Encode, List.toList_data_toByteArray]
  rw [encoded, List.flatMap_map]
  clear encoded
  induction bytes with
  | nil => rfl
  | cons byte bytes ih =>
    have first := one ⟨byte.toNat, UInt8.lt_iff_toNat_lt.mp (ascii byte (by simp))⟩
    rw [UInt8.ofNat_toNat] at first
    rw [List.flatMap_cons, ih fun other listed => ascii other (by simp [listed])]
    exact congrArg (· ++ bytes) first

/-- The bytes of a secret are the letters it was written in. -/
theorem utf8_generateUniqueSecretKey (bytes : Vector UInt8 20) :
    utf8 (generateUniqueSecretKey bytes) = base32Encode bytes.toList := by
  apply utf8_asciiText
  intro letter written
  obtain ⟨value, listed, rfl⟩ := List.mem_map.mp written
  exact (base32Value_letter (base32Values_lt _ value listed)).2.2.2

/-- Letters are the same inside an address. -/
theorem base32Encode_unreserved (bytes : Bytes) : Unreserved (base32Encode bytes) := by
  intro letter written
  obtain ⟨value, listed, rfl⟩ := List.mem_map.mp written
  have read := (base32Value_letter (base32Values_lt _ value listed)).1
  refine ⟨?_, ?_, ?_, ?_, ?_, ?_⟩
  all_goals
    intro same
    rw [same] at read
    cases read

/--
What an authenticator shows at a Unix time when it was shown an address.

The secret is read from the address, and the password is the standard's for six digits and thirty
seconds.
-/
def Shows (crypto : Crypto) (address : Bytes) (now : Int) (code : Bytes) : Prop :=
  ∃ key, queryGet (utf8 "secret") address = some (base32Encode key) ∧
    Hotp.IsCode 6 (Hotp.truncate
      (crypto.hmac key (Sha256.bigEndian (now / 30).toNat 8)).toList) code

/-- The picture of a secret carries the bytes that were drawn. -/
theorem queryGet_secretUrl (bytes : Vector UInt8 20) :
    queryGet (utf8 "secret") (secretUrl (generateUniqueSecretKey bytes)) =
      some (base32Encode bytes.toList) := by
  have parts : secretUrl (generateUniqueSecretKey bytes) =
      utf8 "otpauth://totp/ExampleService:user@example.com" ++ 63 :: (utf8 "secret" ++ 61 ::
        (base32Encode bytes.toList ++ utf8 "&issuer=ExampleService&algorithm=SHA256")) := by
    have front : utf8 "otpauth://totp/ExampleService:user@example.com?secret=" =
        utf8 "otpauth://totp/ExampleService:user@example.com" ++
          63 :: (utf8 "secret" ++ [61]) := rfl
    rw [secretUrl, front, utf8_generateUniqueSecretKey]
    simp
  rw [parts]
  apply queryGet_first (by decide) (by decide) (base32Encode_unreserved _) (by decide)
  intro byte inside
  exact (Option.some.inj inside).symm

/-- An authenticator shows the password the server generates for the same secret. -/
theorem shows_iff (crypto : Crypto) (bytes : Vector UInt8 20) {now : Int} (past : 0 ≤ now)
    (fits : now < 2 ^ 63) (code : Bytes) :
    Shows crypto (secretUrl (generateUniqueSecretKey bytes)) now code ↔
      code = generateTOTPWithSHA256 crypto (generateUniqueSecretKey bytes) 30 now := by
  -- The counter and the key are those of the server.
  have counter : counterBytes 30 now = Sha256.bigEndian (now / 30).toNat 8 := by
    have quotient : now.tdiv 30 = now / 30 := Int.tdiv_eq_ediv_of_nonneg past
    have whole : now / 30 % 2 ^ 64 = now / 30 := Int.emod_eq_of_lt (by omega) (by omega)
    rw [counterBytes, quotient, whole]
  have generated := isCode_generateTOTP crypto (generateUniqueSecretKey bytes) 30 now
  rw [totpDigest, utf8_generateUniqueSecretKey, base32Decode_encode, counter] at generated
  constructor
  · intro shown
    obtain ⟨key, named, shown⟩ := shown
    rw [queryGet_secretUrl] at named
    have same := congrArg (base32Decode []) (Option.some.inj named)
    rw [base32Decode_encode, base32Decode_encode] at same
    rw [← same] at shown
    exact shown.unique generated
  · intro same
    rw [same]
    exact ⟨bytes.toList, queryGet_secretUrl bytes, generated⟩

section
variable (crypto : Crypto) {s : Server} {uid : Bytes}

/-- The row of a card has a password and a secret. -/
def HasFactors (s : Server) (uid hashed : Bytes) (secret : String) : Prop :=
  ∃ card, selectCard s.cards uid = some card ∧ card.hashedPassword = hashed ∧
    card.totpSecretKey = secret

/-- No request changes the password or the secret of a card. -/
theorem HasFactors.next {hashed : Bytes} {secret : String} (has : HasFactors s uid hashed secret)
    (call : Call) : HasFactors ((server crypto).next s call) uid hashed secret := by
  obtain ⟨card, found, password, totp⟩ := has
  refine ⟨rowAfter s call card, ?_, ?_, ?_⟩
  · rw [serve_select, found]
    rfl
  · rw [rowAfter_hashedPassword, password]
  · rw [rowAfter_totpSecretKey, totp]

/-- No run of requests changes the password or the secret of a card. -/
theorem HasFactors.after {hashed : Bytes} {secret : String} (has : HasFactors s uid hashed secret)
    (run : List Call) : HasFactors ((server crypto).after s run) uid hashed secret := by
  induction run generalizing s with
  | nil => exact has
  | cons call run ih => exact ih (has.next crypto call)

/-- The first card of a process gets the test password and the secret drawn, as it is read back. -/
theorem HasFactors.enrolled (first : s.testOnce = true) (free : selectCard s.cards uid = none)
    (env : Env) (key : Bytes) :
    HasFactors ((server crypto).next s (uidKeyCall env uid key)) uid
      (hashOf crypto (utf8 "@Testing_password")) (env.readBack env.secret) := by
  let row : Card :=
    ⟨uid, hashOf crypto (utf8 "@Testing_password"), key, key, env.readBack env.secret⟩
  refine ⟨row, ?_, rfl, rfl⟩
  have enrolled : enrols crypto s (uidKeyCall env uid key) = some row := by
    rw [enrols, if_pos first, enrolment, presents_uidKeyCall]
    rfl
  -- There is no row in front of the new one.
  rw [serve_select, free, enrolled]
  simp [row]

/-- A login with both factors of a card passes, and no other. -/
theorem verdict_login {password totp : Bytes} {hashed : Bytes} {secret : String} (env : Env)
    (has : HasFactors s uid hashed secret) :
    verdict crypto s (passwordCall env uid password totp) = .login uid ↔
      hashOf crypto password = hashed ∧
        totp = generateTOTPWithSHA256 crypto secret 30 env.now := by
  obtain ⟨card, found, rfl, rfl⟩ := has
  rw [verdict_passwordCall]
  have passes : passwordPasses crypto env s
      { type := "Password", uid := bytesToHexString uid, password, totp } = true ↔
      hashOf crypto password = card.hashedPassword ∧
        totp = generateTOTPWithSHA256 crypto card.totpSecretKey 30 env.now := by
    simp only [passwordPasses, decide_eq_true_eq, databaseChecker_totp, databaseChecker_password,
      hexBytes_bytesToHexString, found, Option.some.injEq, exists_eq_left']
  split_ifs with passed
  · simp [passes.mp passed]
  · simp [← passes, passed]

/--
The user of the first card of a process can log in at any time, with the code that the authenticator
shows that was given the picture of the secret, and with no other.

A secret that looks like a number is the exception, as the table gives back another text for it:
then only the password of that text is good. What is requested in between, by whom and however
often, makes no difference.
-/
theorem enrolled_login (first : s.testOnce = true) (free : selectCard s.cards uid = none)
    {env : Env} {bytes : Vector UInt8 20} (drawn : env.secret = generateUniqueSecretKey bytes)
    (key : Bytes) (run : List Call) {later : Env} (past : 0 ≤ later.now)
    (fits : later.now < 2 ^ 63) (typed : Bytes) :
    verdict crypto ((server crypto).after s (uidKeyCall env uid key :: run))
        (passwordCall later uid (utf8 "@Testing_password") typed) = .login uid ↔
      if looksNumeric (utf8 env.secret) then
        typed = generateTOTPWithSHA256 crypto (env.numberText env.secret) 30 later.now
      else Shows crypto (secretUrl env.secret) later.now typed := by
  -- The row is enrolled by the first request, and no later one changes its password or secret.
  have still := (HasFactors.enrolled crypto first free env key).after crypto run
  rw [Reactive.Machine.after_cons, verdict_login crypto later still, eq_self, true_and]
  unfold Env.readBack
  split_ifs with number
  · rfl
  · -- The server computes with the secret that is in the picture.
    rw [drawn]
    exact (shows_iff crypto bytes past fits typed).symm

end

/-- What the first card of a process is enrolled with when every byte drawn is a seven. -/
def drawnEnv : Env := { quietEnv with secret := generateUniqueSecretKey (Vector.replicate 20 7) }

/-- What it is enrolled with when every bit drawn is set: thirty-two sevens, kept as a number. -/
def sevensEnv : Env where
  __ := quietEnv
  secret := generateUniqueSecretKey (Vector.replicate 20 255)
  numberText _ := "7.777777777777778e+31"

/-- Alice's login when her card was the first one, and someone has asked for the door since. -/
def aliceLogin (env : Env) (typed : Bytes) : Latch.Event Bytes :=
  verdict Crypto.standard
    ((server Crypto.standard).after (Server.start [])
      (uidKeyCall env alice aliceKey :: [openCall quietEnv]))
    (passwordCall quietEnv alice (utf8 "@Testing_password") typed)

/--
Alice logs in with the code of her authenticator.

With a secret of thirty-two sevens that code is refused, and the one of the number is good.
-/
theorem enrolled_login_alice :
    aliceLogin drawnEnv (generateTOTPWithSHA256 Crypto.standard
        (generateUniqueSecretKey (Vector.replicate 20 7)) 30 59) = .login alice ∧
      aliceLogin sevensEnv (generateTOTPWithSHA256 Crypto.standard
        (generateUniqueSecretKey (Vector.replicate 20 255)) 30 59) ≠ .login alice ∧
      aliceLogin sevensEnv
        (generateTOTPWithSHA256 Crypto.standard "7.777777777777778e+31" 30 59) = .login alice := by
  have letters : looksNumeric (utf8 drawnEnv.secret) = false := by
    rw [drawnEnv, utf8_generateUniqueSecretKey]
    decide
  have digits : looksNumeric (utf8 sevensEnv.secret) = true := by
    rw [sevensEnv, utf8_generateUniqueSecretKey]
    decide
  have drawn := @enrolled_login Crypto.standard (Server.start []) alice rfl rfl drawnEnv
    (Vector.replicate 20 7) rfl aliceKey [openCall quietEnv] quietEnv (by decide) (by decide)
  have sevens := @enrolled_login Crypto.standard (Server.start []) alice rfl rfl sevensEnv
    (Vector.replicate 20 255) rfl aliceKey [openCall quietEnv] quietEnv (by decide) (by decide)
  simp only [letters, Bool.false_eq_true, if_false] at drawn
  simp only [digits, if_true] at sevens
  refine ⟨(drawn _).mpr ?_, fun passed => ?_, (sevens _).mpr rfl⟩
  · exact (shows_iff Crypto.standard (Vector.replicate 20 7) (by decide : (0 : Int) ≤ 59)
      (by decide) _).mpr rfl
  · -- The two secrets give other passwords at this moment.
    exact absurd ((sevens _).mp passed) (by decide +kernel)

end Rfid
