import Mathlib.Data.List.Basic

/-! Bytes written as hexadecimal text and read back. -/

namespace Text

/-- What a reader of hexadecimal text objects to. -/
inductive HexError where
  | invalidByte (byte : UInt8)
  | length
  deriving DecidableEq, Repr

/-- The value of one hexadecimal digit of either case. -/
def hexValue (digit : UInt8) : Option UInt8 :=
  if 48 ≤ digit ∧ digit ≤ 57 then some (digit - 48)
  else if 97 ≤ digit ∧ digit ≤ 102 then some (digit - 87)
  else if 65 ≤ digit ∧ digit ≤ 70 then some (digit - 55)
  else none

/--
The bytes a hexadecimal text stands for, and the first objection to it.

The bytes decoded before an objection are returned beside it.
-/
def hexDecode : List UInt8 → List UInt8 × Option HexError
  | [] => ([], none)
  -- A single digit is too short, but an invalid one is named first.
  | [p] => if (hexValue p).isNone then ([], some (.invalidByte p)) else ([], some .length)
  | p :: q :: rest =>
    match hexValue p, hexValue q with
    -- The first digit of the pair is tested first.
    | none, _ => ([], some (.invalidByte p))
    | some _, none => ([], some (.invalidByte q))
    | some high, some low =>
      let (bytes, objection) := hexDecode rest
      ((high <<< 4 ||| low) :: bytes, objection)

/-- A byte that is a hexadecimal digit of either case. -/
def IsHexDigit (byte : UInt8) : Prop :=
  48 ≤ byte ∧ byte ≤ 57 ∨ 97 ≤ byte ∧ byte ≤ 102 ∨ 65 ≤ byte ∧ byte ≤ 70

instance : DecidablePred IsHexDigit :=
  fun _ => inferInstanceAs (Decidable (_ ∨ _))

/-- A text of an even number of hexadecimal digits. -/
def IsHex (text : List UInt8) : Prop :=
  text.length % 2 = 0 ∧ ∀ digit ∈ text, IsHexDigit digit

instance : DecidablePred IsHex :=
  fun _ => inferInstanceAs (Decidable (_ ∧ _))

/-- The digit of a value below sixteen, letters in upper case. -/
def hexDigit (value : UInt8) : UInt8 :=
  if value < 10 then 48 + value else 55 + value

/-- The two digits of a byte, high half first. -/
def hexPair (byte : UInt8) : List UInt8 :=
  [hexDigit (byte >>> 4), hexDigit (byte &&& 15)]

/-- The digits of a byte string, two for each byte. -/
def hexEncode (bytes : List UInt8) : List UInt8 :=
  bytes.flatMap hexPair

/-- A byte has a value exactly when it is a digit. -/
theorem hexValue_isSome {byte : UInt8} : (hexValue byte).isSome = true ↔ IsHexDigit byte := by
  -- The value is tested range by range.
  unfold hexValue IsHexDigit
  split_ifs <;> simp_all

/-- Both digits of a byte read back as its halves, which make up the byte again. -/
theorem hexValue_hexPair : ∀ byte : UInt8,
    hexValue (hexDigit (byte >>> 4)) = some (byte >>> 4) ∧
      hexValue (hexDigit (byte &&& 15)) = some (byte &&& 15) ∧
      byte >>> 4 <<< 4 ||| byte &&& 15 = byte := by
  -- There are 256 bytes, each of them checked.
  have all : ∀ n : Fin 256,
      let byte := UInt8.ofFin n
      hexValue (hexDigit (byte >>> 4)) = some (byte >>> 4) ∧
        hexValue (hexDigit (byte &&& 15)) = some (byte &&& 15) ∧
        byte >>> 4 <<< 4 ||| byte &&& 15 = byte := by decide +kernel
  exact fun byte => all byte.toFin

/-- Bytes in hexadecimal are written with hexadecimal digits only. -/
theorem isHexDigit_of_mem_hexEncode {bytes : List UInt8} {digit : UInt8}
    (written : digit ∈ hexEncode bytes) : IsHexDigit digit := by
  obtain ⟨byte, -, inside⟩ := List.mem_flatMap.mp written
  obtain ⟨high, low, -⟩ := hexValue_hexPair byte
  rw [← hexValue_isSome]
  cases List.mem_cons.mp inside with
  | inl first => rw [first, high, Option.isSome_some]
  | inr second => rw [List.mem_singleton.mp second, low, Option.isSome_some]

/-- Bytes written in hexadecimal read back as the same bytes, without an objection. -/
@[simp] theorem hexDecode_hexEncode (bytes : List UInt8) :
    hexDecode (hexEncode bytes) = (bytes, none) := by
  -- Two digits at a time rebuild one byte, and the rest of the text follows.
  induction bytes with
  | nil => rfl
  | cons byte bytes ih =>
    obtain ⟨high, low, halves⟩ := hexValue_hexPair byte
    have unfolded : hexEncode (byte :: bytes) =
        hexDigit (byte >>> 4) :: hexDigit (byte &&& 15) :: hexEncode bytes := rfl
    simp only [unfolded, hexDecode, high, low, ih, halves]

end Text
