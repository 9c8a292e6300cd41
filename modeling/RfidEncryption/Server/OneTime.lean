import RfidEncryption.Crypto.Hotp
import RfidEncryption.Server.Replies

/-! The one-time password the server expects is the one of the standard. -/

namespace Rfid

/--
`generateTOTPWithSHA256` with each index tested before it is used.

It is `none` where an index outside the digest would end the process.
-/
def generateTOTPTested (crypto : Crypto) (secret : String) (interval now : Int) : Option Bytes := do
  let key := base32Decode [] (utf8 secret)
  let hash := (crypto.hmac key (counterBytes interval now)).toList
  let last ← hash[hash.length - 1]?
  -- The offset and the indices behind it are bytes.
  let offset := last &&& 0xf
  let first ← hash[offset.toNat]?
  let second ← hash[(offset + 1).toNat]?
  let third ← hash[(offset + 2).toNat]?
  let fourth ← hash[(offset + 3).toNat]?
  let binaryCode := (first &&& 0x7f).toNat <<< 24 ||| second.toNat <<< 16 |||
    third.toNat <<< 8 ||| fourth.toNat
  return decimal 6 (binaryCode % 10 ^ 6)

/-- Masks, shifts and unions put four bytes together to a number of 31 bits. -/
theorem binaryCode_eq (a b c d : UInt8) :
    (a &&& 0x7f).toNat <<< 24 ||| b.toNat <<< 16 ||| c.toNat <<< 8 ||| d.toNat =
      Hotp.bytesValue [a, b, c, d] % 2 ^ 31 := by
  have aBound := a.toNat_lt
  have bBound := b.toNat_lt
  have cBound := c.toNat_lt
  have dBound := d.toNat_lt
  -- The mask keeps seven bits.
  have masked : (a &&& 0x7f).toNat = a.toNat % 2 ^ 7 := by
    rw [UInt8.toNat_and]
    exact Nat.and_two_pow_sub_one_eq_mod a.toNat 7
  -- Each byte fits below the ones before it.
  have high : (a.toNat % 2 ^ 7) <<< 24 ||| b.toNat <<< 16 =
      (a.toNat % 2 ^ 7 * 2 ^ 8 + b.toNat) <<< 16 := by
    rw [← Nat.shiftLeft_add_eq_or_of_lt (by rw [Nat.shiftLeft_eq]; omega)]
    simp only [Nat.shiftLeft_eq]
    omega
  have middle : (a.toNat % 2 ^ 7 * 2 ^ 8 + b.toNat) <<< 16 ||| c.toNat <<< 8 =
      ((a.toNat % 2 ^ 7 * 2 ^ 8 + b.toNat) * 2 ^ 8 + c.toNat) <<< 8 := by
    rw [← Nat.shiftLeft_add_eq_or_of_lt (by rw [Nat.shiftLeft_eq]; omega)]
    simp only [Nat.shiftLeft_eq]
    omega
  rw [masked, high, middle, ← Nat.shiftLeft_add_eq_or_of_lt dBound, Hotp.bytesValue_four,
    Nat.shiftLeft_eq]
  omega

/-- The digits of a number show the number. -/
theorem digitsValue_toDigits (number : Nat) :
    Hotp.digitsValue ((Nat.toDigits 10 number).map Char.toUInt8) = number := by
  have digit : ∀ n < 10, (Nat.digitChar n).toUInt8.toNat - 48 = n := by decide
  -- The last digit is the remainder, and the others show the quotient.
  induction number using Nat.strong_induction_on with
  | _ number ih =>
    rw [Nat.toDigits_eq_if (by decide)]
    split_ifs with small
    · simp [Hotp.digitsValue, digit number small]
    · have rest := ih (number / 10) (by omega)
      have last := digit (number % 10) (by omega)
      rw [Hotp.digitsValue, List.map_append, List.reverse_append, List.map_append,
        Nat.ofDigits_append]
      rw [Hotp.digitsValue] at rest
      simp only [rest, last, List.map_cons, List.map_nil, List.reverse_cons, List.reverse_nil,
        List.nil_append, List.length_cons, List.length_nil, Nat.ofDigits_cons, Nat.ofDigits_nil]
      omega

/-- A number printed with a width that has room for it is a code of that many digits. -/
theorem isCode_decimal {width number : Nat} (positive : 0 < width) (fits : number < 10 ^ width) :
    Hotp.IsCode width number (decimal width number) := by
  refine ⟨?_, fun byte listed => mem_decimal listed, ?_⟩
  · have length := (Nat.length_toDigits_le_iff (by decide) positive).mpr fits
    simp only [decimal, List.length_leftpad, List.length_map]
    omega
  · rw [decimal, List.leftpad, Hotp.digitsValue_zeros, digitsValue_toDigits,
      Nat.mod_eq_of_lt fits]

/-- The big-endian bytes of a number are those of its low places. -/
theorem bytesValue_bigEndian (number count : Nat) :
    Hotp.bytesValue (Sha256.bigEndian number count) = number % 256 ^ count := by
  induction count with
  | zero => simp [Sha256.bigEndian, Hotp.bytesValue, Nat.mod_one]
  | succ count ih =>
    -- The first byte is the highest of the places that are kept.
    rw [Sha256.bigEndian, Hotp.bytesValue_cons, Sha256.bigEndian_length, ih, Nat.mod_pow_succ,
      UInt8.toNat_ofNat', Nat.shiftRight_eq_div_pow, Nat.pow_mul]
    rw [Nat.add_comm, Nat.mul_comm (256 ^ count)]

/-- The counter of a Unix time is written in eight bytes without loss. -/
theorem counterBytes_value {now : Int} (past : 0 ≤ now) (fits : now < 2 ^ 63) :
    Hotp.bytesValue (counterBytes 30 now) = (now / 30).toNat := by
  have quotient : now.tdiv 30 = now / 30 := Int.tdiv_eq_ediv_of_nonneg past
  -- The counter is below the number of values of eight bytes.
  have bound : (now / 30).toNat < 256 ^ 8 := by omega
  have exact' : now / 30 % 2 ^ 64 = now / 30 := Int.emod_eq_of_lt (by omega) (by omega)
  rw [counterBytes, bytesValue_bigEndian, quotient, exact', Nat.mod_eq_of_lt bound]

/-- The bytes of a digest are listed in their order. -/
theorem digest_getElem? (hash : Vector UInt8 32) {i : Nat} (inside : i < 32) :
    hash.toList[i]? = some (hash.get ⟨i, inside⟩) := by
  rw [List.getElem?_eq_getElem (by simpa using inside), Vector.getElem_toList]
  rfl

section
variable (crypto : Crypto) (secret : String) (interval now : Int)

/-- What the standard truncates for a secret at a Unix time. -/
def totpDigest : Bytes :=
  (crypto.hmac (base32Decode [] (utf8 secret)) (counterBytes interval now)).toList

/-- The mask of the offset keeps four bits. -/
theorem offset_mod (byte : UInt8) : (byte &&& 0xf).toNat = byte.toNat % 16 := by
  rw [UInt8.toNat_and]
  exact Nat.and_two_pow_sub_one_eq_mod byte.toNat 4

/-- The password is the truncated digest, printed with a width of six. -/
theorem generateTOTPWithSHA256_eq :
    generateTOTPWithSHA256 crypto secret interval now =
      decimal 6 (Hotp.truncate (totpDigest crypto secret interval now) % 10 ^ 6) := by
  -- The four bytes are those from the offset on.
  have truncated : ∀ (hash : Vector UInt8 32) (k : Nat) (offset : k = hash[31].toNat % 16),
      Hotp.truncate hash.toList =
        Hotp.bytesValue [hash[k], hash[k + 1], hash[k + 2], hash[k + 3]] % 2 ^ 31 := by
    intro hash k offset
    have ends : hash.toList.getLast? = some hash[31] := by simp [List.getLast?_eq_getElem?]
    exact Hotp.truncate_eq ends offset (digest_getElem? hash _) (digest_getElem? hash _)
      (digest_getElem? hash _) (digest_getElem? hash _)
  rw [totpDigest, truncated _ _ (offset_mod _)]
  exact congrArg (fun code => decimal 6 (code % 10 ^ 6)) (binaryCode_eq _ _ _ _)

/-- No index is outside the digest, whatever it is. -/
theorem generateTOTPTested_eq :
    generateTOTPTested crypto secret interval now =
      some (generateTOTPWithSHA256 crypto secret interval now) := by
  have last : ∀ hash : Vector UInt8 32,
      hash.toList[hash.toList.length - 1]? = some hash[31] := by simp
  -- Three more than the offset is still below the width of a byte.
  have next : ∀ (byte step : UInt8), step.toNat ≤ 3 →
      ((byte &&& 0xf) + step).toNat = (byte &&& 0xf).toNat + step.toNat := by
    intro byte step small
    have bound := offset_le byte
    rw [UInt8.toNat_add]
    omega
  have bound :=
    offset_le (crypto.hmac (base32Decode [] (utf8 secret)) (counterBytes interval now))[31]
  unfold generateTOTPTested
  simp only [last, Option.bind_eq_bind, Option.bind_some, next _ 1 (by decide),
    next _ 2 (by decide), next _ 3 (by decide), UInt8.reduceToNat]
  rw [digest_getElem? _ (by omega), Option.bind_some, digest_getElem? _ (by omega),
    Option.bind_some, digest_getElem? _ (by omega), Option.bind_some,
    digest_getElem? _ (by omega), Option.bind_some]
  rfl

/-- The password is the code of six digits for the truncated digest. -/
theorem isCode_generateTOTP :
    Hotp.IsCode 6 (Hotp.truncate (totpDigest crypto secret interval now))
      (generateTOTPWithSHA256 crypto secret interval now) := by
  have fits : Hotp.truncate (totpDigest crypto secret interval now) % 10 ^ 6 < 10 ^ 6 :=
    Nat.mod_lt _ (by decide)
  have code := isCode_decimal (by decide) fits
  rw [generateTOTPWithSHA256_eq]
  -- The number was reduced before it was printed.
  exact ⟨code.length, code.decimal, code.value.trans (Nat.mod_mod _ _)⟩

/--
The one-time password of a secret is the code of the standard, and no other input is accepted.

The counter is that of thirty seconds, no index leaves the digest, and leading zeros are kept.
-/
theorem totp_is_standard (env : Env) (past : 0 ≤ env.now) (fits : env.now < 2 ^ 63) :
    ((counterBytes 30 env.now).length = 8 ∧
      Hotp.bytesValue (counterBytes 30 env.now) = (env.now / 30).toNat) ∧
    ∃ code, generateTOTPTested crypto secret 30 env.now = some code ∧
      generateTOTPWithSHA256 crypto secret 30 env.now = code ∧
      (∀ text,
        Hotp.IsCode 6
          (Hotp.truncate
            (crypto.hmac (base32Decode [] (utf8 secret)) (counterBytes 30 env.now)).toList) text ↔
          text = code) ∧
      ∀ (cards : Cards) (uid input : Bytes) (card : Card), selectCard cards uid = some card →
        card.totpSecretKey = secret →
          ((databaseChecker crypto env cards uid input "TOTP").1 = 1 ↔ input = code) := by
  refine ⟨⟨Sha256.bigEndian_length _ _, counterBytes_value past fits⟩, _,
    generateTOTPTested_eq crypto secret 30 env.now, rfl, ?_, ?_⟩
  · intro text
    have code := isCode_generateTOTP crypto secret 30 env.now
    constructor
    · intro again
      exact again.unique code
    · rintro rfl
      exact code
  · intro cards uid input card found holds
    rw [databaseChecker_totp]
    constructor
    · intro accepted
      obtain ⟨other, again, rfl⟩ := accepted
      -- The row that is found is the one the secret is from.
      obtain rfl := Option.some.inj (found.symm.trans again)
      rw [holds]
    · intro same
      exact ⟨card, found, by rw [same, holds]⟩

end

/-- The code of Alice at the quiet moment is the one she logs in with. -/
theorem totp_alice :
    ∃ code,
      generateTOTPTested Crypto.standard "GEZDGNBVGY3TQOJQGEZDGNBVGY3TQOJQ" 30 59 = some code ∧
      code = utf8 "247374" ∧
      ∀ input, (databaseChecker Crypto.standard quietEnv twoCards alice input "TOTP").1 = 1 ↔
        input = code := by
  obtain ⟨-, code, tested, generated, -, accepted⟩ :=
    totp_is_standard Crypto.standard "GEZDGNBVGY3TQOJQGEZDGNBVGY3TQOJQ" quietEnv (by decide)
      (by decide)
  have digits : generateTOTPWithSHA256 Crypto.standard "GEZDGNBVGY3TQOJQGEZDGNBVGY3TQOJQ" 30 59 =
      utf8 "247374" := by decide +kernel
  refine ⟨code, tested, generated.symm.trans digits, fun input => ?_⟩
  exact accepted twoCards alice input (enrolledCard alice aliceKey) rfl rfl

end Rfid
