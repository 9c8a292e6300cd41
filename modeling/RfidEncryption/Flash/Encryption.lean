import Mathlib.Order.Bounds.Basic
import RfidEncryption.Crypto.Ecb
import RfidEncryption.Flash.Partition

/-! Encrypting in place gives the padded text in ECB mode, and touches nothing behind it. -/

namespace Rfid

open Memory

/-- A buffer from `malloc`, with the number of bytes it has room for. -/
structure HeapBuffer where
  ram : Ram UInt8
  capacity : Nat
  /-- No object is larger. -/
  bounded : capacity ≤ objectLimit

section
variable (buffer : Ram UInt8) {length : Nat}

/-- The padded length is the least multiple of a block that the text fits in. -/
theorem padStringPkcs7_isLeast (room : length + 16 ≤ sizeRange) :
    IsLeast {total | 16 ∣ total ∧ length ≤ total} (padStringPkcs7 buffer length).1 := by
  by_cases whole : length % 16 = 0
  · rw [padStringPkcs7_whole buffer whole]
    exact ⟨⟨Nat.dvd_of_mod_eq_zero whole, le_rfl⟩, fun total fits => fits.2⟩
  · -- The padding leads to the end of the block the text ends in.
    rw [padStringPkcs7_part buffer whole room, Pkcs7.fill]
    refine ⟨⟨Nat.dvd_of_mod_eq_zero (by omega), Nat.le_add_right _ _⟩, fun total fits => ?_⟩
    obtain ⟨⟨blocks, rfl⟩, fits⟩ := fits
    omega

/-- The padded text is the text with its padding behind it. -/
theorem padStringPkcs7_window (room : length + 16 ≤ sizeRange) :
    (padStringPkcs7 buffer length).2.window 0 (padStringPkcs7 buffer length).1 =
      buffer.window 0 length ++
        List.replicate ((padStringPkcs7 buffer length).1 - length)
          (UInt8.ofNat ((padStringPkcs7 buffer length).1 - length)) := by
  by_cases whole : length % 16 = 0
  · simp [padStringPkcs7_whole buffer whole]
  · rw [padStringPkcs7_part buffer whole room]
    simp only [Nat.add_sub_cancel_left]
    refine List.ext_getElem (by simp) fun i listed inside => ?_
    simp only [Ram.window_length] at listed
    -- A cell is one of the text or one of the padding.
    rcases Nat.lt_or_ge i length with text | padding
    · rw [List.getElem_append_left (by simpa using text)]
      simp only [Ram.window, List.getElem_map, List.getElem_range, Nat.zero_add]
      exact Ram.stores_outside _ (.inl text)
    · rw [List.getElem_append_right (by simpa using padding)]
      obtain ⟨j, rfl⟩ := Nat.exists_eq_add_of_le padding
      simp only [Ram.window, List.getElem_map, List.getElem_range, Nat.zero_add,
        List.getElem_replicate]
      rw [Ram.stores_inside (by simpa using listed), List.getElem_replicate]

/-- Padding changes no cell behind the padded text. -/
theorem padStringPkcs7_outside (room : length + 16 ≤ sizeRange) {i : Nat}
    (behind : (padStringPkcs7 buffer length).1 ≤ i) :
    (padStringPkcs7 buffer length).2.cell i = buffer.cell i := by
  by_cases whole : length % 16 = 0
  · rw [padStringPkcs7_whole buffer whole]
  · rw [padStringPkcs7_part buffer whole room] at behind ⊢
    exact Ram.stores_outside _ (.inr (by simpa using behind))

/-- Padding touches no cell behind the padded text. -/
theorem bound_of_mem_padStringPkcs7 (room : length + 16 ≤ sizeRange) {i : Nat}
    (touched : i ∈ (padStringPkcs7 buffer length).2.touched) :
    i ∈ buffer.touched ∨ i < (padStringPkcs7 buffer length).1 := by
  by_cases whole : length % 16 = 0
  · rw [padStringPkcs7_whole buffer whole] at touched
    exact .inl touched
  · rw [padStringPkcs7_part buffer whole room] at touched ⊢
    rw [Ram.mem_stores_touched, List.length_replicate] at touched
    exact touched.imp_right And.right

end

section
variable (lib : Mbedtls) (nul : UInt8) {derivation : Derivation} (buffer : HeapBuffer) {n : Nat}

/-- A key whose schedule can be set up encrypts every block. -/
theorem aesEncrypter_accepted {aesKey : AesKey} (accepted : lib.setkeyEnc aesKey = 0) :
    aesEncrypter lib aesKey = lib.encryptEcb aesKey := by
  funext data
  simp [aesEncrypter, accepted]

/--
Encrypting a text in a buffer of whole blocks gives the padded text in ECB mode.

The length is the least one of whole blocks, and the padding tells how much it adds.
Nothing behind that length is touched or changed, so nothing outside the buffer is.
-/
theorem encryption_is_padded_ecb (derived : derivation.ret = 0)
    (accepted : lib.setkeyEnc derivation.derivedKey = 0) (whole : buffer.capacity % 16 = 0)
    (fits : n ≤ buffer.capacity) :
    ∃ m after, stringWithAES lib nul derivation buffer.ram n false = (m, after) ∧
      IsLeast {total | 16 ∣ total ∧ n ≤ total} m ∧ m ≤ buffer.capacity ∧
      (∀ i ∈ after.touched, i ∈ buffer.ram.touched ∨ i < m) ∧
      after.window 0 m =
        Ecb.ecb (lib.encryptEcb derivation.derivedKey)
          (buffer.ram.window 0 n ++ List.replicate (m - n) (UInt8.ofNat (m - n))) ∧
      ∀ i, m ≤ i → after.cell i = buffer.ram.cell i := by
  -- No length in the buffer comes near the end of `size_t`.
  have room : n + 16 ≤ sizeRange := by
    have bounded := buffer.bounded
    simp only [objectLimit, sizeRange] at bounded ⊢
    omega
  have least := padStringPkcs7_isLeast buffer.ram room
  have blocks : (padStringPkcs7 buffer.ram n).1 / 16 * 16 = (padStringPkcs7 buffer.ram n).1 :=
    Nat.div_mul_cancel least.1.1
  rw [stringWithAES_encrypt lib nul derivation buffer.ram derived,
    aesEncrypter_accepted lib accepted]
  refine ⟨_, _, rfl, least, least.2 ⟨Nat.dvd_of_mod_eq_zero whole, fits⟩, ?_, ?_, ?_⟩
  · intro i touched
    -- The blocks are those of the padded text.
    rw [Ram.mem_mapBlocks_touched, blocks] at touched
    rcases touched with padded | block
    · exact bound_of_mem_padStringPkcs7 buffer.ram room padded
    · exact .inr block
  · have text := Ram.window_mapBlocks (padStringPkcs7 buffer.ram n).2
      ((padStringPkcs7 buffer.ram n).1 / 16) (by decide) (lib.encryptEcb derivation.derivedKey)
    rw [blocks] at text
    rw [text, padStringPkcs7_window buffer.ram room]
  · intro i behind
    rw [Ram.mapBlocks_outside (by rwa [blocks]), padStringPkcs7_outside buffer.ram room behind]

end

/-- Three bytes in a buffer as large as the one of `flash_writer`. -/
def abcBuffer : HeapBuffer where
  ram := Ram.fresh fun i => (utf8 "abc").getD i 255
  capacity := partitionSize
  bounded := by decide

/-- Three bytes become the one block of their padded text. -/
theorem encryption_abc :
    ∃ m after,
      stringWithAES .standard 0 ⟨0, Vector.replicate 32 7⟩ abcBuffer.ram 3 false = (m, after) ∧
      IsLeast {total | 16 ∣ total ∧ 3 ≤ total} m ∧ m ≤ partitionSize ∧
      (∀ i ∈ after.touched, i ∈ [] ∨ i < m) ∧
      after.window 0 m =
        Ecb.ecb (Aes.encrypt (Vector.replicate 32 7))
          (abcBuffer.ram.window 0 3 ++ List.replicate (m - 3) (UInt8.ofNat (m - 3))) ∧
      ∀ i, m ≤ i → after.cell i = abcBuffer.ram.cell i :=
  encryption_is_padded_ecb .standard 0 abcBuffer rfl rfl (by decide) (by decide)

end Rfid
