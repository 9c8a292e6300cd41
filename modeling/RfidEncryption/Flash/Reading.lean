import RfidEncryption.Flash.Partition

/-! What `flash_reader` makes of a partition: the length it returns and the memory it touches. -/

namespace Rfid

open Memory

section
variable (lib : Mbedtls) (nul : UInt8) {calls : ReadCalls} (output : Cells) {label : Bool}
  {content : Cells} {p : Nat}

/-- Reading a partition is scanning it and decrypting what the scan has found. -/
theorem flashReader_read (found : calls.partition label = some content) (read : calls.readRet = 0)
    (flashSize : Nat) :
    (flashReader lib nul calls output flashSize label).length =
        (stringWithAES lib nul calls.derivation
          (scanMarker (readBuffer calls content flashSize) 0 flashSize).2
          (scanMarker (readBuffer calls content flashSize) 0 flashSize).1 true).1 ∧
      (flashReader lib nul calls output flashSize label).buffer =
        (stringWithAES lib nul calls.derivation
          (scanMarker (readBuffer calls content flashSize) 0 flashSize).2
          (scanMarker (readBuffer calls content flashSize) 0 flashSize).1 true).2 := by
  simp [flashReader, found, read]

/-- A partition that cannot be read is taken for an empty one. -/
theorem flashReader_failed (found : calls.partition label = some content)
    (failed : calls.readRet ≠ 0) (flashSize : Nat) :
    flashReader lib nul calls output flashSize label = ⟨0, output, Ram.fresh calls.heap⟩ := by
  simp [flashReader, found, failed]

/-- A marker inside the partition is one in the buffer. -/
theorem marker_buffer (inside : p + 4 ≤ partitionSize) :
    Marker (readBuffer calls content partitionSize).cell p ↔ Marker content p := by
  refine forall_congr' fun j => forall_congr' fun within => ?_
  rw [readBuffer_inside (by omega)]

/-- The first marker of the buffer is that of the partition, if it has one. -/
theorem firstMarker_buffer (inside : p + 4 ≤ partitionSize) :
    FirstMarker (readBuffer calls content partitionSize).cell 0 p ↔ FirstMarker content 0 p := by
  constructor
  · intro first
    exact ⟨first.behind, (marker_buffer inside).mp first.marker, fun q behind before marker =>
      first.first q behind before ((marker_buffer (by omega)).mpr marker)⟩
  · intro first
    exact ⟨first.behind, (marker_buffer inside).mpr first.marker, fun q behind before marker =>
      first.first q behind before ((marker_buffer (by omega)).mp marker)⟩

/-- The block before a marker is decrypted as the partition holds it. -/
theorem lastDecrypted_buffer {buffer : Ram UInt8} {aesKey : AesKey} (positive : 0 < p)
    (whole : p % 16 = 0) (inside : p ≤ partitionSize)
    (same : ∀ i < p, buffer.cell i = (readBuffer calls content partitionSize).cell i) :
    lastDecrypted lib aesKey buffer p = lastDecrypted lib aesKey (Ram.fresh content) p := by
  -- The block ends where the marker starts.
  have block : buffer.block (p - 16) 16 = (Ram.fresh content).block (p - 16) 16 := by
    refine Ram.block_congr fun j within => ?_
    rw [same _ (by omega), readBuffer_inside (by omega), Ram.fresh_cell]
  rw [lastDecrypted, lastDecrypted, block]

/-- A scan that finds the first marker of the buffer decrypts what stands before it. -/
theorem flashReader_found (found : calls.partition label = some content)
    (read : calls.readRet = 0)
    (first : FirstMarker (readBuffer calls content partitionSize).cell 0 p)
    (reached : p ≤ partitionSize) :
    (flashReader lib nul calls output partitionSize label).length =
      if calls.derivation.ret ≠ 0 then 0
      else if p % 16 ≠ 0 ∨
          17 < lastDecrypted lib calls.derivation.derivedKey (Ram.fresh content) p then p
      else sizeSub p
        (lastDecrypted lib calls.derivation.derivedKey (Ram.fresh content) p).toNat := by
  obtain ⟨scanned, same, -, ends⟩ := scanMarker_found first (show p ≤ 0 + partitionSize by omega)
  rw [(flashReader_read lib nul output found read partitionSize).1, ends]
  have small : p < sizeRange := by
    simp only [partitionSize, sizeRange] at reached ⊢
    omega
  by_cases failed : calls.derivation.ret ≠ 0
  · rw [stringWithAES_failed lib nul _ _ failed, if_pos failed]
  · rw [not_not] at failed
    rw [stringWithAES_length lib nul failed first.behind small, if_neg (not_not_intro failed)]
    by_cases part : p % 16 ≠ 0
    · rw [if_pos (.inl part), if_pos (.inl part)]
    · -- The zero the scan has put there is behind the last block.
      rw [not_not] at part
      have last := @lastDecrypted_buffer lib calls content p
        ((Ram.allAre 255 scanned p 4).2.store p 0) calls.derivation.derivedKey first.behind part
        reached fun i before => by
          rw [Ram.store_cell, Function.update_of_ne (by omega), Ram.allAre_cell, same]
      rw [last]

/-- A scan that finds no marker goes on with a length of zero and the byte before the buffer. -/
theorem flashReader_none (found : calls.partition label = some content)
    (read : calls.readRet = 0)
    (none : ∀ q, 0 < q → q ≤ partitionSize →
      ¬ Marker (readBuffer calls content partitionSize).cell q) :
    (flashReader lib nul calls output partitionSize label).length =
      if calls.derivation.ret ≠ 0 ∨ 17 < calls.heap (sizeSub 0 1) then 0
      else sizeSub 0 (calls.heap (sizeSub 0 1)).toNat := by
  obtain ⟨length, cell⟩ := @scanMarker_none (readBuffer calls content partitionSize) 0
    partitionSize fun q behind within => none q behind (by omega)
  have outside : (readBuffer calls content partitionSize).cell (sizeSub 0 1) =
      calls.heap (sizeSub 0 1) := readBuffer_outside (by decide)
  rw [(flashReader_read lib nul output found read partitionSize).1, length]
  by_cases failed : calls.derivation.ret ≠ 0
  · rw [stringWithAES_failed lib nul _ _ failed, if_pos (.inl failed)]
  · rw [not_not] at failed
    rw [stringWithAES_decrypt lib nul _ _ failed]
    -- There is no block, so the byte is as the scan has left it.
    have before : ((scanMarker (readBuffer calls content partitionSize) 0 partitionSize).2.mapBlocks
        (aesDecrypter lib calls.derivation.derivedKey) (0 / 16)).cell (sizeSub 0 1) =
        calls.heap (sizeSub 0 1) := by
      rw [← outside, ← cell]
      rfl
    by_cases large : 17 < calls.heap (sizeSub 0 1)
    · rw [depadStringPkcs7_kept nul _ rfl (by rwa [before]), if_pos (.inr large)]
    · rw [depadStringPkcs7_cut nul _ rfl (by rwa [before]), before,
        if_neg (by simp [failed, large])]

end

/-- The bytes before a place, decrypted block by block. -/
def decrypted (lib : Mbedtls) (aesKey : AesKey) (content : Cells) (n : Nat) : List UInt8 :=
  ((Ram.fresh content).mapBlocks (aesDecrypter lib aesKey) (n / 16)).window 0 n

/-- A partition that holds a ciphertext, whose text ends in a padding, and is erased behind it. -/
def WellFormed (lib : Mbedtls) (aesKey : AesKey) (content : Cells) : Prop :=
  ∃ n, 0 < n ∧ n % 16 = 0 ∧ n ≤ partitionSize ∧
    (∀ i, n ≤ i → i < partitionSize → content i = 255) ∧
      Pkcs7.Padded 16 (decrypted lib aesKey content n)

/--
What a partition and the memory around the buffer must be for `flash_reader` to return zero.

No key was derived, or the first block is nothing but padding, or no marker is found and the byte
before the buffer is no padding from one to seventeen.
-/
def ReturnsNothing (lib : Mbedtls) (calls : ReadCalls) (content : Cells) : Prop :=
  calls.readRet ≠ 0 ∨ calls.derivation.ret ≠ 0 ∨
    (FirstMarker content 0 16 ∧
      lastDecrypted lib calls.derivation.derivedKey (Ram.fresh content) 16 = 16) ∨
    ((∀ q, 0 < q → q ≤ partitionSize → ¬ Marker (readBuffer calls content partitionSize).cell q) ∧
      (calls.heap (sizeSub 0 1) = 0 ∨ 17 < calls.heap (sizeSub 0 1)))

section
variable (lib : Mbedtls) (nul : UInt8) (output : Cells)

/-- The buffer holds a first marker in reach of the scan, or none in reach at all. -/
theorem firstMarker_or_none (calls : ReadCalls) (content : Cells) :
    (∃ p, p ≤ partitionSize ∧ FirstMarker (readBuffer calls content partitionSize).cell 0 p) ∨
      ∀ q, 0 < q → q ≤ partitionSize →
        ¬ Marker (readBuffer calls content partitionSize).cell q := by
  by_cases some : ∃ q, 0 < q ∧ q ≤ partitionSize ∧
      Marker (readBuffer calls content partitionSize).cell q
  · obtain ⟨q, behind, within, marker⟩ := some
    obtain ⟨p, bound, first⟩ := firstMarker_of_marker behind marker
    exact .inl ⟨p, by omega, first⟩
  · exact .inr fun q behind within marker => some ⟨q, behind, within, marker⟩

/-- A difference of a length in reach and a padding is zero only when they are equal. -/
theorem sizeSub_eq_zero {a b : Nat} (left : a ≤ partitionSize) (right : b ≤ 17) :
    sizeSub a b = 0 ↔ a = b := by
  simp only [sizeSub, sizeRange, partitionSize] at left ⊢
  omega

/-- A byte that is not above seventeen is at most seventeen. -/
theorem toNat_le_of_not_lt {byte : UInt8} (small : ¬ 17 < byte) : byte.toNat ≤ 17 :=
  UInt8.le_iff_toNat_le.mp (UInt8.not_lt.mp small)

variable {calls : ReadCalls} {label : Bool} {content : Cells}

/-- Where a marker is found, only one block of padding makes the length zero. -/
theorem length_eq_zero_found (found : calls.partition label = some content)
    (read : calls.readRet = 0) (derived : calls.derivation.ret = 0) {p : Nat}
    (first : FirstMarker (readBuffer calls content partitionSize).cell 0 p)
    (reached : p ≤ partitionSize) :
    (flashReader lib nul calls output partitionSize label).length = 0 ↔
      p = 16 ∧ lastDecrypted lib calls.derivation.derivedKey (Ram.fresh content) 16 = 16 := by
  have positive := first.behind
  rw [flashReader_found lib nul output found read first reached, if_neg (not_not_intro derived)]
  split_ifs with kept
  · -- The length the scan has found is not zero.
    refine iff_of_false (by omega) fun block => ?_
    obtain ⟨rfl, last⟩ := block
    rw [last] at kept
    exact absurd kept (by decide)
  · simp only [not_or, not_not] at kept
    have small := toNat_le_of_not_lt kept.2
    -- A padding as long as the text of whole blocks is one block.
    rw [sizeSub_eq_zero reached small]
    constructor
    · intro same
      have here : p = 16 := by omega
      subst here
      exact ⟨rfl, UInt8.toNat_inj.mp same.symm⟩
    · intro block
      obtain ⟨rfl, last⟩ := block
      rw [last]
      rfl

/-- Where no marker is found, the byte before the buffer decides. -/
theorem length_eq_zero_none (found : calls.partition label = some content)
    (read : calls.readRet = 0) (derived : calls.derivation.ret = 0)
    (none : ∀ q, 0 < q → q ≤ partitionSize →
      ¬ Marker (readBuffer calls content partitionSize).cell q) :
    (flashReader lib nul calls output partitionSize label).length = 0 ↔
      calls.heap (sizeSub 0 1) = 0 ∨ 17 < calls.heap (sizeSub 0 1) := by
  rw [flashReader_none lib nul output found read none]
  split_ifs with kept
  · exact iff_of_true rfl (.inr (kept.resolve_left (not_not_intro derived)))
  · simp only [not_or, not_not] at kept
    -- Taking off a padding of a byte or more wraps.
    rw [sizeSub_eq_zero (Nat.zero_le _) (toNat_le_of_not_lt kept.2), or_iff_left kept.2, eq_comm]
    exact UInt8.toNat_inj (b := 0)

/-- These are the inputs for which `flash_reader` returns zero. -/
theorem flashReader_eq_zero (found : calls.partition label = some content) :
    (flashReader lib nul calls output partitionSize label).length = 0 ↔
      ReturnsNothing lib calls content := by
  unfold ReturnsNothing
  by_cases failed : calls.readRet ≠ 0
  · rw [flashReader_failed lib nul output found failed]
    exact iff_of_true rfl (.inl failed)
  have read : calls.readRet = 0 := not_not.mp failed
  rw [or_iff_right failed]
  by_cases underived : calls.derivation.ret ≠ 0
  · refine iff_of_true ?_ (.inl underived)
    rcases firstMarker_or_none calls content with ⟨p, reached, first⟩ | none
    · rw [flashReader_found lib nul output found read first reached, if_pos underived]
    · rw [flashReader_none lib nul output found read none, if_pos (.inl underived)]
  have derived : calls.derivation.ret = 0 := not_not.mp underived
  rw [or_iff_right underived]
  rcases firstMarker_or_none calls content with ⟨p, reached, first⟩ | none
  · rw [length_eq_zero_found lib nul output found read derived first reached,
      or_iff_left fun unmarked => unmarked.1 p first.behind reached first.marker]
    -- A first marker at sixteen is the one that was found.
    refine and_congr_left fun _ => ⟨?_, fun block => ?_⟩
    · rintro rfl
      exact (firstMarker_buffer (by decide)).mp first
    · exact first.unique ((firstMarker_buffer (by decide)).mpr block)
  · have unmarked : ¬ (FirstMarker content 0 16 ∧
        lastDecrypted lib calls.derivation.derivedKey (Ram.fresh content) 16 = 16) := fun block =>
      none 16 (by decide) (by decide) ((marker_buffer (by decide)).mpr block.1.marker)
    rw [length_eq_zero_none lib nul output found read derived none, and_iff_right none,
      or_iff_right unmarked]

end

/--
The reader returns a length for well-formed partitions only, exactly when the partition is one or
the reader returns zero for another reason.

A scan that stops anywhere and a padding that is no padding are logged, and a length is returned.
-/
theorem reader_strict_iff (lib : Mbedtls) (nul : UInt8) (calls : ReadCalls) (output : Cells)
    (label : Bool) (content : Cells) (found : calls.partition label = some content) :
    ((flashReader lib nul calls output partitionSize label).length ≠ 0 →
      WellFormed lib calls.derivation.derivedKey content) ↔
    WellFormed lib calls.derivation.derivedKey content ∨ ReturnsNothing lib calls content := by
  rw [← flashReader_eq_zero lib nul output found, or_comm]
  exact or_iff_not_imp_left.symm

/-- A partition with one block in it, which holds three letters and their padding. -/
def abcPartition : Cells := fun i =>
  (Aes.encrypt (Vector.replicate 32 7)
    #v[97, 98, 99, 13, 13, 13, 13, 13, 13, 13, 13, 13, 13, 13, 13, 13]).toList.getD i 255

/-- Behind its block the partition is erased. -/
theorem abcPartition_erased {i : Nat} (behind : 16 ≤ i) : abcPartition i = 255 := by
  rw [abcPartition, List.getD_eq_getElem?_getD, List.getElem?_eq_none (by simpa using behind)]
  rfl

/-- The partition with the three letters is a well-formed one. -/
theorem wellFormed_abcPartition : WellFormed .standard (Vector.replicate 32 7) abcPartition := by
  exact ⟨16, by decide, by decide, by decide, fun i behind _ => abcPartition_erased behind,
    [97, 98, 99], 13, by decide, by decide, by decide +kernel⟩

/-- The erased flash behind its block is where the marker is found. -/
theorem firstMarker_abcPartition : FirstMarker abcPartition 0 16 where
  behind := by decide
  marker j _ := abcPartition_erased (by omega)
  first q behind before := by
    -- The block has no four bytes 255 in a row.
    have none : ∀ q < 16, 0 < q → ¬ Marker abcPartition q := by decide +kernel
    exact none q before behind

/-- The partition with the three letters is read, and it is well formed. -/
theorem reader_strict_abc :
    (flashReader .standard 0 (quietRead abcPartition) (fun _ => 0) partitionSize false).length = 3 ∧
      WellFormed .standard (Vector.replicate 32 7) abcPartition := by
  have three : (flashReader .standard 0 (quietRead abcPartition) (fun _ => 0) partitionSize
      false).length = 3 := by decide +kernel
  have strict := (reader_strict_iff .standard 0 (quietRead abcPartition) (fun _ => 0) false
    abcPartition rfl).mpr (.inl wellFormed_abcPartition)
  exact ⟨three, strict (by rw [three]; decide)⟩

/-- A partition that ends in a byte which is no padding does not hold a ciphertext alone. -/
theorem not_wellFormed_of_last {lib : Mbedtls} {aesKey : AesKey} {content : Cells}
    (ends : ∀ n, 0 < n → n % 16 = 0 → n ≤ partitionSize →
      (∀ i, n ≤ i → i < partitionSize → content i = 255) →
        16 < (lastDecrypted lib aesKey (Ram.fresh content) n).toNat) :
    ¬ WellFormed lib aesKey content := by
  intro wellFormed
  obtain ⟨n, positive, whole, bound, behind, padded⟩ := wellFormed
  -- The last byte of the text is that of the last block.
  obtain ⟨last, is, -, small⟩ := padded.last (by decide)
  have byte : last = lastDecrypted lib aesKey (Ram.fresh content) n := by
    rw [← mapBlocks_lastDecrypted lib _ aesKey positive whole]
    rw [decrypted, Ram.window_getLast? positive] at is
    exact (Option.some.inj is).symm
  have large := ends n positive whole bound behind
  rw [← byte] at large
  omega

/-- A partition nobody has written is read as a key of one byte. -/
theorem reader_takes_blank :
    ¬ ∀ (lib : Mbedtls) (nul : UInt8) (calls : ReadCalls) (output : Cells) (label : Bool)
      (content : Cells), calls.partition label = some content →
      (flashReader lib nul calls output partitionSize label).length ≠ 0 →
        WellFormed lib calls.derivation.derivedKey content := by
  intro strict
  -- The marker is found behind the first byte, and a length of one is handed back.
  refine absurd (strict .standard 0 (quietRead fun _ => 255) (fun _ => 0) false (fun _ => 255) rfl
    (by decide)) (not_wellFormed_of_last fun n _ _ _ _ => ?_)
  -- Every block of the partition is decrypted to the same text.
  have block : (Ram.fresh fun _ => (255 : UInt8)).block (n - 16) 16 = Vector.replicate 16 255 := by
    refine Vector.ext fun j inside => ?_
    rw [Ram.block_getElem inside, Vector.getElem_replicate, Ram.fresh_cell]
  rw [lastDecrypted, block]
  decide +kernel

section
variable (lib : Mbedtls) (nul : UInt8) (output : Cells) {calls : ReadCalls} {label : Bool}
  {content : Cells}

/-- A padding of seventeen bytes fits into whole blocks, unless there is but one. -/
theorem toNat_le_of_safe {last : Nat → UInt8} {p : Nat} (positive : 0 < p) (whole : p % 16 = 0)
    (short : ¬ 17 < last p) (safe : ¬ (p = 16 ∧ last 16 = 17)) : (last p).toNat ≤ p := by
  have value := toNat_le_of_not_lt short
  by_contra long
  -- Only a text of one block is shorter than seventeen bytes.
  have here : p = 16 := by omega
  subst here
  refine safe ⟨rfl, UInt8.toNat_inj.mp ?_⟩
  rw [show (17 : UInt8).toNat = 17 from rfl]
  omega

/-- A scan that ends inside the partition stays there and leaves the text before the end alone. -/
theorem scan_inside {p : Nat} (first : FirstMarker content 0 p) (inside : p + 4 ≤ partitionSize)
    (aesKey : AesKey) :
    ∃ scanned : Ram UInt8,
      scanMarker (readBuffer calls content partitionSize) 0 partitionSize = (p, scanned) ∧
        (∀ i ∈ scanned.touched, i < partitionSize) ∧
          (p % 16 = 0 → lastDecrypted lib aesKey scanned p =
            lastDecrypted lib aesKey (Ram.fresh content) p) := by
  have ofBuffer := (@firstMarker_buffer calls content p inside).mpr first
  obtain ⟨scanned, same, bound, ends⟩ :=
    scanMarker_found ofBuffer (show p ≤ 0 + partitionSize by omega)
  refine ⟨_, ends, fun i touched => ?_, fun whole => ?_⟩
  · -- A byte is touched by an earlier pass, by the tests of the marker, or by the zero put there.
    rw [Ram.store_touched, List.mem_cons] at touched
    rcases touched with rfl | tested
    · omega
    · rcases Ram.bound_of_mem_allAre tested with before | marker
      · rcases bound i before with none | within
        · exact absurd none (by simp [readBuffer])
        · omega
      · omega
  · have before : ∀ i < p, ((Ram.allAre 255 scanned p 4).2.store p 0).cell i =
        (readBuffer calls content partitionSize).cell i := by
      intro i before
      rw [Ram.store_cell, Function.update_of_ne (by omega), Ram.allAre_cell, same]
    exact lastDecrypted_buffer lib first.behind whole (by omega) before

/-- A padding of seventeen bytes in a single block makes the unpadding leave the buffer. -/
theorem touched_astray (found : calls.partition label = some content) (read : calls.readRet = 0)
    (first : FirstMarker content 0 16) (derived : calls.derivation.ret = 0)
    (long : lastDecrypted lib calls.derivation.derivedKey (Ram.fresh content) 16 = 17) :
    sizeSub 16 17 ∈ (flashReader lib nul calls output partitionSize label).buffer.touched := by
  obtain ⟨scanned, ends, -, last⟩ :=
    @scan_inside lib calls content 16 first (by decide) calls.derivation.derivedKey
  -- The zero is stored one byte below the start of the buffer.
  have stored := @mem_stringWithAES_of_long lib nul calls.derivation scanned 16 derived (by decide)
    (by decide) rfl (by rw [last rfl, long]; decide)
  rw [last rfl, long] at stored
  rw [(flashReader_read lib nul output found read partitionSize).2, ends]
  exact stored

section
variable (found : calls.partition label = some content) (read : calls.readRet = 0) {p : Nat}
  (first : FirstMarker content 0 p) (inside : p + 4 ≤ partitionSize)
  (safe : ¬ (calls.derivation.ret = 0 ∧ p = 16 ∧
    lastDecrypted lib calls.derivation.derivedKey (Ram.fresh content) 16 = 17))

include found read first inside safe

/-- Any other text before a marker is scanned and decrypted within the buffer. -/
theorem touched_inside {i : Nat}
    (touched : i ∈ (flashReader lib nul calls output partitionSize label).buffer.touched) :
    i < partitionSize := by
  have small : p < sizeRange := by
    simp only [partitionSize, sizeRange] at inside ⊢
    omega
  obtain ⟨scanned, ends, bound, last⟩ :=
    @scan_inside lib calls content p first inside calls.derivation.derivedKey
  rw [(flashReader_read lib nul output found read partitionSize).2, ends] at touched
  -- A padding of seventeen bytes fits into the text.
  have fits : calls.derivation.ret = 0 → p % 16 = 0 →
      lastDecrypted lib calls.derivation.derivedKey scanned p ≤ 17 →
        (lastDecrypted lib calls.derivation.derivedKey scanned p).toNat ≤ p := by
    intro derived whole le
    rw [last whole] at le ⊢
    exact toNat_le_of_safe first.behind whole (UInt8.not_lt.mpr le) fun long => safe ⟨derived, long⟩
  rcases bound_of_mem_stringWithAES lib nul first.behind small fits touched with before | decrypted
  · exact bound i before
  · omega

/-- Any other text before a marker is cut off by no more than there is. -/
theorem length_inside :
    (flashReader lib nul calls output partitionSize label).length ≤ partitionSize := by
  have small : p < sizeRange := by
    simp only [partitionSize, sizeRange] at inside ⊢
    omega
  have ofBuffer := (@firstMarker_buffer calls content p inside).mpr first
  rw [flashReader_found lib nul output found read ofBuffer (by omega)]
  split_ifs with underived kept
  · exact Nat.zero_le _
  · omega
  · -- The difference does not wrap.
    simp only [not_or, not_not] at underived kept
    have le := toNat_le_of_safe first.behind kept.1 kept.2 fun long => safe ⟨underived, long⟩
    rw [sizeSub_of_le small le]
    omega

end

/-- Where the partition holds a marker, only a padding longer than its block leads astray. -/
theorem bounds_found (found : calls.partition label = some content) (read : calls.readRet = 0)
    {p : Nat} (first : FirstMarker content 0 p) (inside : p + 4 ≤ partitionSize) :
    (∀ i ∈ (flashReader lib nul calls output partitionSize label).buffer.touched,
        i < partitionSize) ∧
      (flashReader lib nul calls output partitionSize label).length ≤ partitionSize ↔
    ¬ (calls.derivation.ret = 0 ∧ p = 16 ∧
      lastDecrypted lib calls.derivation.derivedKey (Ram.fresh content) 16 = 17) := by
  constructor
  · intro bounded astray
    obtain ⟨derived, rfl, long⟩ := astray
    have below := bounded.1 _ (touched_astray lib nul output found read first derived long)
    exact absurd below (by decide)
  · intro safe
    exact ⟨fun _ touched => touched_inside lib nul output found read first inside safe touched,
      length_inside lib nul output found read first inside safe⟩

/-- Where the partition holds no marker, the scan leaves the buffer. -/
theorem bounds_none (found : calls.partition label = some content) (read : calls.readRet = 0)
    (none : ∀ p, 0 < p → p + 4 ≤ partitionSize → ¬ Marker content p) :
    ∃ i ∈ (flashReader lib nul calls output partitionSize label).buffer.touched,
      partitionSize ≤ i := by
  rw [(flashReader_read lib nul output found read partitionSize).2]
  rcases firstMarker_or_none calls content with ⟨p, reached, first⟩ | nowhere
  · -- A marker that is found all the same ends behind the buffer.
    obtain ⟨scanned, same, -, ends⟩ := scanMarker_found first (show p ≤ 0 + partitionSize by omega)
    have beyond : ¬ p + 4 ≤ partitionSize := fun inside =>
      none p first.behind inside ((marker_buffer inside).mp first.marker)
    refine ⟨p + 3, mem_stringWithAES_of_mem lib nul ?_, by omega⟩
    rw [ends, Ram.store_touched, List.mem_cons]
    refine .inr (Ram.mem_allAre_of_value (Ram.allAre_value.mpr ?_) (by decide))
    rw [same]
    exact first.marker
  · -- The last pass reads the byte behind the buffer.
    refine ⟨partitionSize, mem_stringWithAES_of_mem lib nul ?_, le_refl _⟩
    have touched := @mem_scanMarker_none (readBuffer calls content partitionSize) 0 4095
      fun q behind within => nowhere q behind (by simpa [partitionSize] using within)
    simpa [partitionSize] using touched

end

/--
The reader stays within its buffer, and returns no more than it read, exactly when the partition
holds a marker and its only block does not end in a padding of seventeen bytes.

The scan looks four bytes ahead, and the unpadding takes off more than there is.
-/
theorem reader_in_bounds_iff (lib : Mbedtls) (nul : UInt8) (calls : ReadCalls) (output : Cells)
    (label : Bool) (content : Cells) (found : calls.partition label = some content) :
    (∀ i ∈ (flashReader lib nul calls output partitionSize label).buffer.touched,
        i < partitionSize) ∧
      (flashReader lib nul calls output partitionSize label).length ≤ partitionSize ↔
    calls.readRet ≠ 0 ∨ ∃ p, FirstMarker content 0 p ∧ p + 4 ≤ partitionSize ∧
      ¬ (calls.derivation.ret = 0 ∧ p = 16 ∧
        lastDecrypted lib calls.derivation.derivedKey (Ram.fresh content) 16 = 17) := by
  by_cases failed : calls.readRet ≠ 0
  · -- Nothing is scanned.
    rw [flashReader_failed lib nul output found failed]
    exact iff_of_true ⟨by simp, Nat.zero_le _⟩ (.inl failed)
  have read : calls.readRet = 0 := not_not.mp failed
  rw [or_iff_right failed]
  by_cases marked : ∃ p, 0 < p ∧ p + 4 ≤ partitionSize ∧ Marker content p
  · obtain ⟨q, behind, within, marker⟩ := marked
    obtain ⟨p, bound, first⟩ := firstMarker_of_marker behind marker
    rw [bounds_found lib nul output found read first (by omega)]
    constructor
    · exact fun safe => ⟨p, first, by omega, safe⟩
    · intro other
      obtain ⟨p', first', -, safe⟩ := other
      rwa [first.unique first']
  · -- Without a marker both sides fail.
    refine iff_of_false (fun bounded => ?_) fun other => ?_
    · obtain ⟨i, touched, beyond⟩ := bounds_none lib nul output found read
        fun p behind within marker => marked ⟨p, behind, within, marker⟩
      exact absurd (bounded.1 i touched) (by omega)
    · obtain ⟨p, first, within, -⟩ := other
      exact marked ⟨p, first.behind, within, first.marker⟩

/-- The partition with the three letters is scanned, decrypted and unpadded within the buffer. -/
theorem reader_in_bounds_abc :
    (∀ i ∈ (flashReader .standard 0 (quietRead abcPartition) (fun _ => 0) partitionSize
        false).buffer.touched, i < partitionSize) ∧
      (flashReader .standard 0 (quietRead abcPartition) (fun _ => 0) partitionSize false).length ≤
        partitionSize := by
  have last :
      ¬ lastDecrypted .standard (Vector.replicate 32 7) (Ram.fresh abcPartition) 16 = 17 := by
    -- The padding of three letters is thirteen bytes.
    decide +kernel
  exact (reader_in_bounds_iff .standard 0 (quietRead abcPartition) (fun _ => 0) false abcPartition
    rfl).mpr (.inr ⟨16, firstMarker_abcPartition, by decide, fun wraps => last wraps.2.2⟩)

/-- A partition without a marker makes the scan leave its buffer. -/
theorem reader_leaves_buffer :
    ¬ ∀ (lib : Mbedtls) (nul : UInt8) (calls : ReadCalls) (output : Cells) (label : Bool)
      (content : Cells), calls.partition label = some content →
      (∀ i ∈ (flashReader lib nul calls output partitionSize label).buffer.touched,
          i < partitionSize) ∧
        (flashReader lib nul calls output partitionSize label).length ≤ partitionSize := by
  intro bounded
  -- No byte of the partition is 255.
  have inside := (bounded .standard 0 (quietRead fun _ => 0) (fun _ => 0) false (fun _ => 0) rfl).1
  obtain ⟨i, touched, beyond⟩ := @bounds_none .standard 0 (fun _ => 0) (quietRead fun _ => 0) false
    (fun _ => 0) rfl rfl fun p _ _ marker =>
      absurd (marker 0 (by decide)) (show ¬ (0 : UInt8) = 255 by decide)
  exact absurd (inside i touched) (by omega)

end Rfid
