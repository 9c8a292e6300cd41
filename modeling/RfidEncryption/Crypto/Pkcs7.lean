import Mathlib.Data.List.Basic

/-! The padding that fills the last block of a text, as PKCS#7 defines it. -/

namespace Pkcs7

/-- How many bytes fill the last block, which is a whole block behind a text of whole blocks. -/
def fill (width length : Nat) : Nat := width - length % width

/-- A text that ends in a padding. -/
def Padded (width : Nat) (padded : List UInt8) : Prop :=
  ∃ (text : List UInt8) (count : Nat), 1 ≤ count ∧ count ≤ width ∧
    padded = text ++ List.replicate count (UInt8.ofNat count)

/-- A text that ends in a padding of that many bytes, each of which holds the number. -/
structure EndsIn (width : Nat) (padded : List UInt8) (count : Nat) : Prop where
  positive : 1 ≤ count
  bound : count ≤ width
  tail : List.replicate count (UInt8.ofNat count) <:+ padded

section
variable {width count : Nat} {padded : List UInt8}

/-- The padding is at least one byte and at most one block. -/
theorem fill_bounds (positive : 0 < width) (length : Nat) :
    1 ≤ fill width length ∧ fill width length ≤ width := by
  have remainder := Nat.mod_lt length positive
  unfold fill
  omega

/-- The last byte of a padded text tells how long its padding is. -/
theorem Padded.last (ends : Padded width padded) (narrow : width < 256) :
    ∃ last, padded.getLast? = some last ∧ 1 ≤ last.toNat ∧ last.toNat ≤ width := by
  obtain ⟨text, count, positive, bound, rfl⟩ := ends
  -- The last byte of the text is the last of the padding.
  obtain ⟨rest, rfl⟩ : ∃ rest, count = rest + 1 := ⟨count - 1, by omega⟩
  refine ⟨UInt8.ofNat (rest + 1), ?_, ?_⟩
  · rw [List.replicate_succ', ← List.append_assoc, List.getLast?_concat]
  · rw [UInt8.toNat_ofNat_of_lt' (by simp only [UInt8.size]; omega)]
    omega

/-- A padded text ends in a padding of some length. -/
theorem padded_iff : Padded width padded ↔ ∃ count, EndsIn width padded count := by
  constructor
  · intro ends
    obtain ⟨text, count, positive, bound, rfl⟩ := ends
    exact ⟨count, positive, bound, List.suffix_append _ _⟩
  · intro ends
    obtain ⟨count, positive, bound, text, rfl⟩ := ends
    exact ⟨text, count, positive, bound, rfl⟩

/-- The last byte of a text that ends in a padding is the length of the padding. -/
theorem EndsIn.last (ends : EndsIn width padded count) (narrow : width < 256) {byte : UInt8}
    (last : padded.getLast? = some byte) : byte.toNat = count := by
  obtain ⟨positive, bound, text, rfl⟩ := ends
  obtain ⟨rest, rfl⟩ : ∃ rest, count = rest + 1 := ⟨count - 1, by omega⟩
  rw [List.replicate_succ', ← List.append_assoc, List.getLast?_concat, Option.some.injEq] at last
  rw [← last, UInt8.toNat_ofNat_of_lt' (by simp only [UInt8.size]; omega)]

/-- A text ends in at most one padding, which is as long as its last byte says. -/
theorem endsIn_iff (narrow : width < 256) {byte : UInt8} (last : padded.getLast? = some byte) :
    EndsIn width padded count ↔ Padded width padded ∧ count = byte.toNat := by
  constructor
  · intro ends
    exact ⟨padded_iff.mpr ⟨count, ends⟩, (ends.last narrow last).symm⟩
  · intro ends
    obtain ⟨padding, rfl⟩ := ends
    obtain ⟨count, ends⟩ := padded_iff.mp padding
    rwa [ends.last narrow last]

end

end Pkcs7
