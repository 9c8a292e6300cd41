import RfidEncryption.Flash.Partition

/-! Whether what is encrypted is decrypted again, and whether its end is found in the flash. -/

namespace Rfid

open Memory

/-- A text encrypted in its buffer and decrypted there again, with the key derived each time. -/
def roundTrip (lib : Mbedtls) (nul : UInt8) (writing reading : Derivation) (buffer : Ram UInt8)
    (length : Nat) : Nat × Ram UInt8 :=
  let (length, buffer) := stringWithAES lib nul writing buffer length false
  stringWithAES lib nul reading buffer length true

section
variable {lib : Mbedtls} (nul : UInt8) {writing reading : Derivation} {buffer : Ram UInt8}
  {length : Nat} (written : writing.ret = 0) (read : reading.ret = 0)
  (same : reading.derivedKey = writing.derivedKey)
  (inverse : ∀ block, aesDecrypter lib writing.derivedKey
    (aesEncrypter lib writing.derivedKey block) = block)

include written read same inverse

variable (buffer length) in
/-- The way there and back leaves the padded text, and cuts off what its last byte says. -/
theorem roundTrip_depad :
    ∃ decrypted : Ram UInt8, decrypted.cell = (padStringPkcs7 buffer length).2.cell ∧
      roundTrip lib nul writing reading buffer length =
        depadStringPkcs7 nul decrypted (padStringPkcs7 buffer length).1 := by
  -- Each block is decrypted to what it was before it was encrypted.
  refine ⟨((padStringPkcs7 buffer length).2.mapBlocks (aesEncrypter lib writing.derivedKey)
    ((padStringPkcs7 buffer length).1 / 16)).mapBlocks (aesDecrypter lib writing.derivedKey)
    ((padStringPkcs7 buffer length).1 / 16), Ram.mapBlocks_inverse inverse, ?_⟩
  simp only [roundTrip, stringWithAES_encrypt lib nul writing buffer written]
  rw [stringWithAES_decrypt lib nul reading _ read, same]

/-- A text whose last block is not full comes back with its length and every byte. -/
theorem roundTrip_part (part : length % 16 ≠ 0) (room : length + 16 < sizeRange) :
    (roundTrip lib nul writing reading buffer length).1 = length ∧
      ∀ i < length, (roundTrip lib nul writing reading buffer length).2.cell i = buffer.cell i := by
  obtain ⟨decrypted, cell, trip⟩ := roundTrip_depad nul buffer length written read same inverse
  rw [padStringPkcs7_part buffer part (by omega)] at cell trip
  obtain ⟨positive, small⟩ := @Pkcs7.fill_bounds 16 (by decide) length
  have whole : (length + Pkcs7.fill 16 length) % 16 = 0 := by
    unfold Pkcs7.fill
    omega
  -- The last byte is one of the padding, which is cut off.
  have before : sizeSub (length + Pkcs7.fill 16 length) 1 =
      length + (Pkcs7.fill 16 length - 1) := by
    rw [sizeSub_of_le (by omega) (by omega)]
    omega
  have last : decrypted.cell (sizeSub (length + Pkcs7.fill 16 length) 1) =
      UInt8.ofNat (Pkcs7.fill 16 length) := by
    rw [cell, before, Ram.stores_inside (by rw [List.length_replicate]; omega),
      List.getElem_replicate]
  have value : (UInt8.ofNat (Pkcs7.fill 16 length)).toNat = Pkcs7.fill 16 length :=
    UInt8.toNat_ofNat_of_lt' (by simp only [UInt8.size]; omega)
  have padding : ¬ 17 < decrypted.cell (sizeSub (length + Pkcs7.fill 16 length) 1) := by
    rw [last, UInt8.not_lt, UInt8.le_iff_toNat_le, value]
    exact small.trans (by decide)
  rw [trip, depadStringPkcs7_cut nul decrypted whole padding, last, value,
    sizeSub_of_le (by omega) (by omega), Nat.add_sub_cancel_right]
  refine ⟨rfl, fun i inside => ?_⟩
  -- The zero is stored behind the text.
  rw [Ram.store_cell, Function.update_of_ne (by omega), Ram.load_cell, cell,
    Ram.stores_outside _ (.inl inside)]

/-- A text of whole blocks comes back as it was, and its own last byte is taken for a padding. -/
theorem roundTrip_unpadded (whole : length % 16 = 0) (positive : 0 < length)
    (room : length < sizeRange) :
    ∃ decrypted : Ram UInt8, decrypted.cell = buffer.cell ∧
      decrypted.cell (sizeSub length 1) = buffer.cell (length - 1) ∧
        roundTrip lib nul writing reading buffer length =
          depadStringPkcs7 nul decrypted length := by
  obtain ⟨decrypted, cell, trip⟩ := roundTrip_depad nul buffer length written read same inverse
  rw [padStringPkcs7_whole buffer whole] at cell trip
  exact ⟨decrypted, cell, by rw [cell, sizeSub_of_le room positive], trip⟩

/-- A text of whole blocks keeps its length unless its last byte looks like a padding. -/
theorem roundTrip_whole (whole : length % 16 = 0) (positive : 0 < length)
    (room : length < sizeRange) :
    (roundTrip lib nul writing reading buffer length).1 = length ↔
      buffer.cell (length - 1) = 0 ∨ 17 < buffer.cell (length - 1) := by
  obtain ⟨decrypted, -, last, trip⟩ :=
    roundTrip_unpadded nul written read same inverse whole positive room
  by_cases large : 17 < buffer.cell (length - 1)
  · -- A last byte above seventeen is left alone.
    rw [trip, depadStringPkcs7_kept nul decrypted whole (by rwa [last])]
    simp [large]
  · rw [trip, depadStringPkcs7_cut nul decrypted whole (by rwa [last]), last,
      or_iff_left large, ← UInt8.toNat_inj]
    -- The length is the same only if nothing is taken off.
    rcases Nat.lt_or_ge length (buffer.cell (length - 1)).toNat with below | above
    · have byte := (buffer.cell (length - 1)).toNat_lt
      rw [sizeSub_of_lt below]
      simp only [sizeRange, UInt8.toNat_zero] at room byte ⊢
      omega
    · rw [sizeSub_of_le room above, UInt8.toNat_zero]
      omega

/-- A text of whole blocks that keeps its length keeps its bytes. -/
theorem roundTrip_whole_cells (whole : length % 16 = 0) (positive : 0 < length)
    (room : length < sizeRange)
    (safe : buffer.cell (length - 1) = 0 ∨ 17 < buffer.cell (length - 1)) {i : Nat}
    (inside : i < length) :
    (roundTrip lib nul writing reading buffer length).2.cell i = buffer.cell i := by
  obtain ⟨decrypted, cell, last, trip⟩ :=
    roundTrip_unpadded nul written read same inverse whole positive room
  by_cases large : 17 < buffer.cell (length - 1)
  · rw [trip, depadStringPkcs7_kept nul decrypted whole (by rwa [last]), Ram.load_cell, cell]
  · -- The zero is stored behind the text.
    rw [trip, depadStringPkcs7_cut nul decrypted whole (by rwa [last]), last,
      safe.resolve_right large, UInt8.toNat_zero, sizeSub_of_le room (Nat.zero_le length),
      Ram.store_cell, Function.update_of_ne (by omega), Ram.load_cell, cell]

end

/-- A buffer that starts with some bytes. -/
def bufferOf (bytes : List UInt8) : Ram UInt8 := Ram.fresh fun i => bytes.getD i 0

@[simp] theorem bufferOf_window (bytes : List UInt8) :
    (bufferOf bytes).window 0 bytes.length = bytes := by
  rw [Ram.window_eq_iff]
  intro j inside
  simp [bufferOf, inside]

/--
A text comes back from its encryption exactly when its last block is not full or its last byte is
no padding from one to seventeen.

The padder adds nothing to whole blocks, but the unpadder takes their last byte for a padding.
-/
theorem storage_round_trip_iff (lib : Mbedtls) (nul : UInt8) (writing reading : Derivation)
    (buffer : Ram UInt8) (d : List UInt8) (nonempty : d ≠ [])
    (holds : buffer.window 0 d.length = d) (room : d.length + 16 ≤ objectLimit)
    (written : writing.ret = 0) (read : reading.ret = 0)
    (same : reading.derivedKey = writing.derivedKey)
    (inverse : ∀ block, aesDecrypter lib writing.derivedKey
      (aesEncrypter lib writing.derivedKey block) = block) :
    (roundTrip lib nul writing reading buffer d.length).1 = d.length ∧
      (roundTrip lib nul writing reading buffer d.length).2.window 0 d.length = d ↔
    d.length % 16 ≠ 0 ∨ d.getLast nonempty = 0 ∨ 17 < d.getLast nonempty := by
  have positive : 0 < d.length := List.length_pos_iff.mpr nonempty
  simp only [objectLimit] at room
  -- The buffer holds the text when it holds what it held before.
  have cells : ∀ after : Ram UInt8, after.window 0 d.length = d ↔
      ∀ i < d.length, after.cell i = buffer.cell i := by
    have before := Ram.window_eq_iff.mp holds
    simp only [Nat.zero_add] at before
    intro after
    rw [Ram.window_eq_iff]
    refine forall_congr' fun i => forall_congr' fun inside => ?_
    rw [Nat.zero_add, before i inside]
  have last : d.getLast nonempty = buffer.cell (d.length - 1) := by
    have ends := Ram.window_getLast? (m := buffer) positive
    rw [holds, List.getLast?_eq_getLast_of_ne_nil nonempty] at ends
    exact Option.some.inj ends
  rw [cells, last]
  by_cases whole : d.length % 16 = 0
  · have small : d.length < sizeRange := by
      simp only [sizeRange]
      omega
    rw [or_iff_right (not_not_intro whole),
      roundTrip_whole nul written read same inverse whole positive small, and_iff_left_iff_imp]
    exact fun safe i =>
      roundTrip_whole_cells nul written read same inverse whole positive small safe
  · have small : d.length + 16 < sizeRange := by
      simp only [sizeRange]
      omega
    exact iff_of_true (roundTrip_part nul written read same inverse whole small) (.inl whole)

/-- A text of three bytes comes back. -/
theorem storage_round_trip_short :
    (roundTrip .standard 0 ⟨0, Vector.replicate 32 7⟩ ⟨0, Vector.replicate 32 7⟩
        (bufferOf [1, 2, 3]) 3).1 = 3 ∧
      (roundTrip .standard 0 ⟨0, Vector.replicate 32 7⟩ ⟨0, Vector.replicate 32 7⟩
        (bufferOf [1, 2, 3]) 3).2.window 0 3 = [1, 2, 3] :=
  (storage_round_trip_iff .standard 0 ⟨0, Vector.replicate 32 7⟩ ⟨0, Vector.replicate 32 7⟩
    (bufferOf [1, 2, 3]) [1, 2, 3] (by decide) (bufferOf_window _) (by decide) rfl rfl rfl
    (aesDecrypter_aesEncrypter _)).mpr (.inl (by decide))

/-- A block that ends in a one comes back without it. -/
theorem storage_round_trip_cut :
    ¬ ∀ (lib : Mbedtls) (nul : UInt8) (writing reading : Derivation) (buffer : Ram UInt8)
      (d : List UInt8), d ≠ [] → buffer.window 0 d.length = d → d.length + 16 ≤ objectLimit →
      writing.ret = 0 → reading.ret = 0 → reading.derivedKey = writing.derivedKey →
      (∀ block, aesDecrypter lib writing.derivedKey
        (aesEncrypter lib writing.derivedKey block) = block) →
      (roundTrip lib nul writing reading buffer d.length).1 = d.length ∧
        (roundTrip lib nul writing reading buffer d.length).2.window 0 d.length = d := by
  intro returns
  -- The one is taken for a padding of one byte.
  have trip := returns .standard 0 ⟨0, Vector.replicate 32 7⟩ ⟨0, Vector.replicate 32 7⟩
    (bufferOf (List.replicate 15 0 ++ [1])) (List.replicate 15 0 ++ [1]) (by decide)
    (bufferOf_window _) (by decide) rfl rfl rfl (aesDecrypter_aesEncrypter _)
  have safe := (roundTrip_whole 0 rfl rfl rfl (aesDecrypter_aesEncrypter _) (by decide)
    (by decide) (by decide)).mp trip.1
  exact absurd safe (by decide)

section
variable {key : List UInt8} {content heap : Cells}

/-- Written bytes are read as they were written. -/
theorem stored_inside {i : Nat} (inside : i < key.length) (room : key.length ≤ partitionSize) :
    stored key content i = key[i] := by
  -- Writing clears bits, of which an erased byte has all.
  have erasedByte : erased 0 partitionSize content i = 255 := if_pos (by omega)
  have full : ∀ byte : UInt8, 255 &&& byte = byte := by
    intro byte
    rw [UInt8.and_comm]
    exact UInt8.and_neg_one
  simp only [stored, programmed, inside, if_true, erasedByte]
  rw [full, List.getD_eq_getElem?_getD, List.getElem?_eq_getElem inside, Option.getD_some]

/-- The rest of the partition stays erased. -/
theorem stored_behind {i : Nat} (behind : key.length ≤ i) (room : i < partitionSize) :
    stored key content i = 255 := by
  simp only [stored, programmed, if_neg (Nat.not_lt.mpr behind)]
  exact if_pos (by omega)

/-- A marker inside a ciphertext is a row of four bytes 255 in it. -/
theorem marker_inside_iff {calls : ReadCalls} {p : Nat} (room : key.length ≤ partitionSize)
    (inside : p + 4 ≤ key.length) :
    Marker (readBuffer calls (stored key content) partitionSize).cell p ↔
      ∀ j < 4, key[p + j]? = some 255 := by
  refine forall_congr' fun j => forall_congr' fun within => ?_
  rw [readBuffer_inside (by omega), stored_inside (by omega) room,
    List.getElem?_eq_getElem (by omega), Option.some.injEq]

/-- The fill behind a ciphertext starts with a marker. -/
theorem marker_end {calls : ReadCalls} (room : key.length + 4 ≤ partitionSize) :
    Marker (readBuffer calls (stored key content) partitionSize).cell key.length := by
  intro j within
  rw [readBuffer_inside (by omega), stored_behind (by omega) (by omega)]

/-- A marker that starts at the last byte of a ciphertext or little before it tells that byte. -/
theorem last_of_marker {calls : ReadCalls} {p : Nat} (nonempty : key ≠ [])
    (room : key.length + 4 ≤ partitionSize) (before : p < key.length) (reaches : key.length < p + 4)
    (marker : Marker (readBuffer calls (stored key content) partitionSize).cell p) :
    key.getLast nonempty = 255 := by
  have byte := marker (key.length - 1 - p) (by omega)
  have last : p + (key.length - 1 - p) = key.length - 1 := by omega
  rw [last, readBuffer_inside (by omega), stored_inside (by omega) (by omega)] at byte
  rw [List.getLast_eq_getElem, byte]

/-- A ciphertext that ends in a byte 255 has a marker there. -/
theorem marker_of_last {calls : ReadCalls} (nonempty : key ≠ [])
    (room : key.length + 4 ≤ partitionSize) (last : key.getLast nonempty = 255) :
    Marker (readBuffer calls (stored key content) partitionSize).cell (key.length - 1) := by
  have positive : 0 < key.length := List.length_pos_iff.mpr nonempty
  intro j within
  rw [readBuffer_inside (by omega)]
  -- The first byte is the last of the ciphertext, and the others are those behind it.
  rcases Nat.eq_zero_or_pos j with rfl | behind
  · rw [Nat.add_zero, stored_inside (by omega) (by omega), ← last, List.getLast_eq_getElem]
  · rw [stored_behind (by omega) (by omega)]

/-- The marker behind a ciphertext is the first one unless its bytes make up one before it. -/
theorem firstMarker_end_iff {calls : ReadCalls} (nonempty : key ≠ []) (long : 1 < key.length)
    (room : key.length + 4 ≤ partitionSize) :
    FirstMarker (readBuffer calls (stored key content) partitionSize).cell 0 key.length ↔
      key.getLast nonempty ≠ 255 ∧ ¬ List.replicate 4 255 <:+: key.tail := by
  constructor
  · intro first
    refine ⟨fun last => ?_, fun row => ?_⟩
    · exact first.first (key.length - 1) (by omega) (by omega) (marker_of_last nonempty room last)
    · -- A row of four behind the first byte is a marker before the end.
      obtain ⟨k, inside, bytes⟩ := List.infix_iff_getElem?.mp row
      simp only [List.length_replicate, List.length_tail] at inside bytes
      refine first.first (k + 1) (by omega) (by omega) ?_
      rw [marker_inside_iff (by omega) (by omega)]
      intro j within
      have byte := bytes j (by simpa using within)
      rw [List.getElem?_tail, List.getElem_replicate] at byte
      rw [← byte]
      congr 1
      omega
  · intro clean
    obtain ⟨last, row⟩ := clean
    refine ⟨by omega, marker_end room, fun p behind before marker => ?_⟩
    -- Any other marker is a row of four or reaches the last byte.
    by_cases inside : p + 4 ≤ key.length
    · have bytes := (marker_inside_iff (by omega) inside).mp marker
      refine row (List.infix_iff_getElem?.mpr ⟨p - 1, by simp; omega, fun j within => ?_⟩)
      have shifted : p - 1 + j + 1 = p + j := by omega
      rw [List.length_replicate] at within
      rw [Nat.add_comm, List.getElem?_tail, shifted, bytes j within, List.getElem_replicate]
    · exact last (last_of_marker nonempty room before (by omega) marker)

end

/-- The scan of `flash_reader` over a partition that was read without an error. -/
def keyScan (calls : ReadCalls) (content : Cells) : Nat × Ram UInt8 :=
  scanMarker (readBuffer calls content partitionSize) 0 partitionSize

/--
The scan gives back a ciphertext exactly when its last byte is not 255 and it has no four bytes 255
in a row behind its first byte.

The record has no length of its own, and the marker of its end is a text it may contain.
-/
theorem framing_iff (calls : ReadCalls) (content : Cells) (key : List UInt8) (nonempty : key ≠ [])
    (whole : key.length % 16 = 0) (room : key.length ≤ 4080) :
    (keyScan calls (stored key content)).1 = key.length ∧
      (keyScan calls (stored key content)).2.window 0 (keyScan calls (stored key content)).1 = key ↔
    key.getLast nonempty ≠ 255 ∧ ¬ List.replicate 4 255 <:+: key.tail := by
  have positive : 0 < key.length := List.length_pos_iff.mpr nonempty
  have fits : key.length + 4 ≤ partitionSize := by
    unfold partitionSize
    omega
  -- The scan stops at the first marker, which is that of the fill or one before it.
  obtain ⟨p, bound, first⟩ :=
    firstMarker_of_marker positive (@marker_end key content calls fits)
  obtain ⟨scanned, same, -, ends⟩ := scanMarker_found first (show p ≤ 0 + partitionSize by omega)
  rw [keyScan, ends, ← @firstMarker_end_iff key content calls nonempty (by omega) fits]
  constructor
  · intro given
    exact given.1 ▸ first
  · intro atEnd
    obtain rfl := first.unique atEnd
    refine ⟨rfl, Ram.window_eq_iff.mpr fun j inside => ?_⟩
    -- The zero is put behind the ciphertext.
    rw [Nat.zero_add, Ram.store_cell, Function.update_of_ne (by omega), Ram.allAre_cell, same,
      readBuffer_inside (by omega), stored_inside inside (by omega)]

/-- A block of zeros is given back. -/
theorem framing_zeros :
    (keyScan (quietRead fun _ => 0) (stored (List.replicate 16 0) fun _ => 0)).1 = 16 ∧
      (keyScan (quietRead fun _ => 0) (stored (List.replicate 16 0) fun _ => 0)).2.window 0
        (keyScan (quietRead fun _ => 0) (stored (List.replicate 16 0) fun _ => 0)).1 =
          List.replicate 16 0 :=
  (framing_iff (quietRead fun _ => 0) (fun _ => 0) (List.replicate 16 0) (by decide) (by decide)
    (by decide)).mpr (by decide)

/-- A block that ends in a byte 255 is given back without it. -/
theorem framing_short :
    ¬ ∀ (calls : ReadCalls) (content : Cells) (key : List UInt8), key ≠ [] → key.length % 16 = 0 →
      key.length ≤ 4080 →
      (keyScan calls (stored key content)).1 = key.length ∧
        (keyScan calls (stored key content)).2.window 0 (keyScan calls (stored key content)).1 =
          key := by
  intro returns
  -- The scan stops at the last byte of the block.
  have given := returns (quietRead fun _ => 0) (fun _ => 0) (List.replicate 15 0 ++ [255])
    (by decide) (by decide) (by decide)
  exact absurd given.1 (by decide)

end Rfid
