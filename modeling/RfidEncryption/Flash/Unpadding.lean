import RfidEncryption.Flash.Partition

/-! Which paddings the unpadder removes, compared with those that PKCS#7 allows. -/

namespace Rfid

open Memory

section
variable (nul : UInt8) (buffer : Ram UInt8) {length : Nat}

/--
Unpadding takes a number of bytes off a text exactly when these are its padding.

A text that ends in no padding keeps its length and its bytes.
-/
structure RemovesPadding (length : Nat) : Prop where
  removed : ∀ k, 1 ≤ k →
    ((depadStringPkcs7 nul buffer length).1 + k = length ↔
      Pkcs7.EndsIn 16 (buffer.window 0 length) k)
  kept : (∀ k, ¬ Pkcs7.EndsIn 16 (buffer.window 0 length) k) →
    (depadStringPkcs7 nul buffer length).1 = length ∧
      (depadStringPkcs7 nul buffer length).2.window 0 length = buffer.window 0 length

/-- A byte above seventeen keeps the text as it is. -/
theorem depadStringPkcs7_large (positive : 0 < length) (small : length < sizeRange)
    (whole : length % 16 = 0) (large : 17 < buffer.cell (length - 1)) :
    (depadStringPkcs7 nul buffer length).1 = length ∧
      (depadStringPkcs7 nul buffer length).2.window 0 length = buffer.window 0 length := by
  have before : sizeSub length 1 = length - 1 := sizeSub_of_le small positive
  rw [depadStringPkcs7_kept nul buffer whole (by rwa [before])]
  exact ⟨rfl, rfl⟩

/-- A zero takes no byte off the text, and is stored behind it once more. -/
theorem depadStringPkcs7_zero (positive : 0 < length) (small : length < sizeRange)
    (whole : length % 16 = 0) (zero : buffer.cell (length - 1) = 0) :
    (depadStringPkcs7 nul buffer length).1 = length ∧
      (depadStringPkcs7 nul buffer length).2.window 0 length = buffer.window 0 length := by
  have before : sizeSub length 1 = length - 1 := sizeSub_of_le small positive
  rw [depadStringPkcs7_cut nul buffer whole (by rw [before, zero]; decide), before, zero,
    UInt8.toNat_zero, sizeSub_of_le small (Nat.zero_le length), Nat.sub_zero]
  refine ⟨rfl, Ram.window_congr fun i inside => ?_⟩
  rw [Ram.store_cell, Function.update_of_ne (by omega), Ram.load_cell]

/-- A byte from one to seventeen shortens the text, and seventeen bytes may be more than it has. -/
theorem depadStringPkcs7_shortens (positive : 0 < length) (small : length < sizeRange)
    (whole : length % 16 = 0) (nonzero : buffer.cell (length - 1) ≠ 0)
    (short : ¬ 17 < buffer.cell (length - 1)) :
    (depadStringPkcs7 nul buffer length).1 ≠ length ∧
      ((buffer.cell (length - 1)).toNat ≤ length →
        (depadStringPkcs7 nul buffer length).1 + (buffer.cell (length - 1)).toNat = length) := by
  have before : sizeSub length 1 = length - 1 := sizeSub_of_le small positive
  have bytes : 0 < (buffer.cell (length - 1)).toNat := by
    rw [Nat.pos_iff_ne_zero, ne_eq, ← UInt8.toNat_zero, UInt8.toNat_inj]
    exact nonzero
  have bound : (buffer.cell (length - 1)).toNat ≤ 17 := UInt8.not_lt.mp short
  rw [depadStringPkcs7_cut nul buffer whole (by rwa [before]), before]
  simp only [sizeSub, sizeRange] at small ⊢
  omega

/-- A text that ends in no padding may keep its length and its bytes. -/
theorem RemovesPadding.of_kept (unpadded : ¬ Pkcs7.Padded 16 (buffer.window 0 length))
    (same : (depadStringPkcs7 nul buffer length).1 = length ∧
      (depadStringPkcs7 nul buffer length).2.window 0 length = buffer.window 0 length) :
    RemovesPadding nul buffer length where
  removed k taken := by
    have kept := same.1
    refine iff_of_false (by omega) fun ends => ?_
    exact unpadded (Pkcs7.padded_iff.mpr ⟨k, ends⟩)
  kept _ := same

/-- The padding at the end of a text is removed. -/
theorem RemovesPadding.of_padded (positive : 0 < length) (small : length < sizeRange)
    (whole : length % 16 = 0) (padded : Pkcs7.Padded 16 (buffer.window 0 length)) :
    RemovesPadding nul buffer length := by
  have last := Ram.window_getLast? (m := buffer) positive
  -- The last byte of a padding is its length.
  obtain ⟨byte, is, bounds⟩ := padded.last (by decide)
  obtain rfl := Option.some.inj (last.symm.trans is)
  have nonzero : buffer.cell (length - 1) ≠ 0 := by
    intro zero
    rw [zero] at bounds
    exact absurd bounds.1 (by decide)
  have short : ¬ 17 < buffer.cell (length - 1) := by
    rw [UInt8.lt_iff_toNat_lt]
    have seventeen : (17 : UInt8).toNat = 17 := rfl
    omega
  have shortened := depadStringPkcs7_shortens nul buffer positive small whole nonzero short
  have cut := shortened.2 (by omega)
  constructor
  · intro k taken
    rw [Pkcs7.endsIn_iff (by decide) last]
    constructor
    · intro reduced
      exact ⟨padded, by omega⟩
    · intro ends
      rw [ends.2]
      exact cut
  · intro none
    obtain ⟨k, ends⟩ := Pkcs7.padded_iff.mp padded
    exact absurd ends (none k)

/--
Unpadding removes exactly the paddings of PKCS#7 as long as the last byte is a zero, is above
seventeen, or ends a padding.

No other byte of the padding is looked at, and seventeen is taken for one.
-/
theorem removesPadding_iff (positive : 0 < length) (whole : length % 16 = 0)
    (small : length < sizeRange) :
    RemovesPadding nul buffer length ↔
      buffer.cell (length - 1) = 0 ∨ 17 < buffer.cell (length - 1) ∨
        Pkcs7.Padded 16 (buffer.window 0 length) := by
  constructor
  · intro removes
    by_contra neither
    simp only [not_or] at neither
    obtain ⟨nonzero, short, unpadded⟩ := neither
    -- A byte that shortens the text ends no padding.
    have shortened := depadStringPkcs7_shortens nul buffer positive small whole nonzero short
    exact shortened.1 (removes.kept fun k ends => unpadded (Pkcs7.padded_iff.mpr ⟨k, ends⟩)).1
  · intro safe
    by_cases padded : Pkcs7.Padded 16 (buffer.window 0 length)
    · exact .of_padded nul buffer positive small whole padded
    · apply RemovesPadding.of_kept nul buffer padded
      rcases safe with zero | large | ends
      · exact depadStringPkcs7_zero nul buffer positive small whole zero
      · exact depadStringPkcs7_large nul buffer positive small whole large
      · exact absurd ends padded

end

/-- A block whose last bytes hold a number, with zeros before them. -/
def tailBlock (count : Nat) (byte : UInt8) : Ram UInt8 :=
  Ram.fresh fun i => if i < 16 ∧ 16 ≤ i + count then byte else 0

/-- Three bytes that hold a three are removed. -/
theorem removesPadding_three : RemovesPadding 0 (tailBlock 3 3) 16 :=
  (removesPadding_iff 0 (tailBlock 3 3) (by decide) rfl (by decide)).mpr
    (.inr (.inr ⟨List.replicate 13 0, 3, by decide, by decide, by decide⟩))

/-- A single two behind zeros shortens the text by two bytes. -/
theorem removesPadding_astray :
    ¬ ∀ (nul : UInt8) (buffer : Ram UInt8) (length : Nat), 0 < length → length % 16 = 0 →
      length < sizeRange → RemovesPadding nul buffer length := by
  intro removes
  have removed := (removes 0 (tailBlock 1 2) 16 (by decide) rfl (by decide)).removed 2 (by decide)
  -- The byte before the last one would have to hold a two as well.
  have ends := (removed.mp (by decide)).tail
  exact absurd ends (by decide)

end Rfid
