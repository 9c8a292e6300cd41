import Mathlib.Algebra.Group.Int.Defs
import Mathlib.Algebra.Group.Nat.Defs
import RfidEncryption.Basic
import RfidEncryption.Crypto.Sha256

/-! One-time passwords from a shared secret and the clock. -/

namespace Rfid

/-- The hash functions the server calls, with the widths of their results. -/
structure Crypto where
  /-- `sha256.Sum256` -/
  sha256 : Bytes → Vector UInt8 32
  /-- `hmac.New(sha256.New, key)` over one message -/
  hmac : (key message : Bytes) → Vector UInt8 32

/-- The hash functions of Go's standard library. -/
def Crypto.standard : Crypto := ⟨Sha256.sum256, Sha256.hmac⟩

/-- The value of one letter of the standard base32 alphabet. -/
def base32Value (letter : UInt8) : Option UInt8 :=
  -- Letters stand for 0 to 25 and the digits 2 to 7 for the rest.
  if 65 ≤ letter ∧ letter ≤ 90 then some (letter - 65)
  else if 50 ≤ letter ∧ letter ≤ 55 then some (letter - 24)
  else none

/-- The bytes up to eight values of five bits are packed into. -/
def packQuantum : List UInt8 → Bytes
  | [a, b] => [a <<< 3 ||| b >>> 2]
  | [a, b, c, d] => [a <<< 3 ||| b >>> 2, b <<< 6 ||| c <<< 1 ||| d >>> 4]
  | [a, b, c, d, e] =>
    [a <<< 3 ||| b >>> 2, b <<< 6 ||| c <<< 1 ||| d >>> 4, d <<< 4 ||| e >>> 1]
  | [a, b, c, d, e, f, g] =>
    [a <<< 3 ||| b >>> 2, b <<< 6 ||| c <<< 1 ||| d >>> 4, d <<< 4 ||| e >>> 1,
      e <<< 7 ||| f <<< 2 ||| g >>> 3]
  | [a, b, c, d, e, f, g, h] =>
    [a <<< 3 ||| b >>> 2, b <<< 6 ||| c <<< 1 ||| d >>> 4, d <<< 4 ||| e >>> 1,
      e <<< 7 ||| f <<< 2 ||| g >>> 3, g <<< 5 ||| h]
  -- A quantum cut short at one, three or six letters gives no byte at all.
  | _ => []

/-- The bytes of a base32 text without padding, as far as it can be decoded. -/
def base32Decode (quantum : List UInt8) : Bytes → Bytes
  | [] => packQuantum quantum
  | letter :: rest =>
    -- Line ends are stripped before decoding.
    if letter = 10 ∨ letter = 13 then base32Decode quantum rest
    else match base32Value letter with
      -- Nothing decoded of a broken quantum is kept.
      | none => []
      | some value =>
        let quantum := quantum ++ [value]
        if quantum.length = 8 then packQuantum quantum ++ base32Decode [] rest
        else base32Decode quantum rest

/-- The eight big-endian bytes of the interval counter at a Unix time. -/
def counterBytes (interval now : Int) : Bytes :=
  -- Division rounds towards zero, and the counter is converted to 64 bits without a sign.
  Sha256.bigEndian (now.tdiv interval % 2 ^ 64).toNat 8

/-- The low four bits of a byte are an offset that leaves room for four bytes of a digest. -/
theorem offset_le (byte : UInt8) : (byte &&& 0xf).toNat ≤ 15 := by
  -- Masking leaves at most the mask.
  rw [UInt8.toNat_and]
  exact Nat.and_le_right

/-- The six digits shown for a secret during the interval a Unix time falls into. -/
def generateTOTPWithSHA256 (crypto : Crypto) (secret : String) (interval now : Int) : Bytes :=
  -- The decoder's error is dropped, so a malformed secret is cut where it stops decoding.
  let key := base32Decode [] (utf8 secret)
  let hash := crypto.hmac key (counterBytes interval now)
  -- The last byte says where the 31 bits are taken from.
  let offset := (hash[31] &&& 0xf).toNat
  have bound : offset ≤ 15 := offset_le hash[31]
  let binaryCode := (hash[offset] &&& 0x7f).toNat <<< 24 ||| hash[offset + 1].toNat <<< 16 |||
    hash[offset + 2].toNat <<< 8 ||| hash[offset + 3].toNat
  decimal 6 (binaryCode % 10 ^ 6)

/-- A generated password is never empty. -/
theorem generateTOTPWithSHA256_ne_nil (crypto : Crypto) (secret : String) (interval now : Int) :
    generateTOTPWithSHA256 crypto secret interval now ≠ [] := by
  -- It is printed with a width of six.
  intro empty
  have width := decimal_length 6
  have printed := congrArg List.length empty
  simp only [generateTOTPWithSHA256, List.length_nil] at printed
  exact absurd (printed ▸ width _) (by decide)

end Rfid
