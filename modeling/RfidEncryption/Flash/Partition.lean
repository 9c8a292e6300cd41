import RfidEncryption.Flash.Storage
import RfidEncryption.Text.Search
import Mathlib.Data.Nat.Find

/-! The partition of the private key: how it is written, and how it is read back. -/

namespace Rfid

open Memory

/-- Bytes of the flash or of the heap, counted from the address a call is given. -/
abbrev Cells := Nat → UInt8

/-- `PARTITION_SIZE` and `Flash_Size`, the number of bytes of a partition. -/
def partitionSize : Nat := 4096

/-- A change of the flash that a call reports as done. -/
inductive FlashChange where
  | erased (start size : Nat)
  | written (data : List UInt8)
  deriving DecidableEq, Repr

/-- A partition as the flash holds it, and the changes reported as done, the latest first. -/
structure Partition where
  content : Cells
  changes : List FlashChange

/-- The bytes of a partition after erasing some of them. -/
def erased (start size : Nat) (content : Cells) : Cells :=
  fun i => if start ≤ i ∧ i < start + size then 255 else content i

/-- The bytes of a partition after writing some of them, which clears bits and sets none. -/
def programmed (data : List UInt8) (content : Cells) : Cells :=
  fun i => if i < data.length then content i &&& data.getD i 0 else content i

/-- The partition after a ciphertext was written to the start of it, erased before. -/
def stored (c : List UInt8) (content : Cells) : Cells :=
  programmed c (erased 0 partitionSize content)

/-- What `mbedtls_base64_decode` returns, stores and leaves in its output length. -/
structure Decoding where
  ret : Int
  stored : List UInt8
  olen : Nat

/-- What the library calls of one `flash_writer` come to. -/
structure WriteCalls where
  /-- Whether `esp_partition_find_first` finds the partition. -/
  found : Bool
  /-- `mbedtls_base64_decode`, by the room there is and the text. -/
  base64 : Nat → Bytes → Decoding
  derivation : Derivation
  /-- The memory `malloc` returns. -/
  heap : Cells
  eraseRet : Int
  /-- What a failed erase leaves behind. -/
  eraseLeaves : Cells → Cells
  writeRet : Int
  /-- What a failed write leaves behind. -/
  writeLeaves : Cells → Cells

/-- `esp_partition_erase_range` -/
def espPartitionEraseRange (calls : WriteCalls) (start size : Nat) (flash : Partition) :
    Int × Partition :=
  if calls.eraseRet = 0 then
    (0, ⟨erased start size flash.content, .erased start size :: flash.changes⟩)
  else (calls.eraseRet, { flash with content := calls.eraseLeaves flash.content })

/-- `esp_flash_write` -/
def espFlashWrite (calls : WriteCalls) (data : List UInt8) (flash : Partition) : Int × Partition :=
  if calls.writeRet = 0 then
    (0, ⟨programmed data flash.content, .written data :: flash.changes⟩)
  else (calls.writeRet, { flash with content := calls.writeLeaves flash.content })

/-- `decode_pem_base64_to_der`: the length it leaves behind, whatever the decoder returns. -/
def decodePemBase64ToDer (calls : WriteCalls) (base64Str : Bytes) (derOutput : Ram UInt8)
    (derLen : Nat) : Nat × Ram UInt8 :=
  -- The error is only logged.
  let decoded := calls.base64 derLen base64Str
  (decoded.olen, derOutput.stores 0 decoded.stored)

/-- `flash_writer`, where the text is what `Input_RSA_private_key` stands for. -/
def flashWriter (lib : Mbedtls) (nul : UInt8) (calls : WriteCalls) (text : Bytes)
    (flash : Partition) : Partition :=
  if calls.found = false then flash
  else
    let (length, key) :=
      decodePemBase64ToDer calls (Text.cString text) (Ram.fresh calls.heap) partitionSize
    -- A derivation that fails is a length of zero, which is not tested.
    let (length, key) := stringWithAES lib nul calls.derivation key length false
    let (ret, flash) := espPartitionEraseRange calls 0 partitionSize flash
    if ret ≠ 0 then flash
    else (espFlashWrite calls (key.window 0 length) flash).2

/-- What the library calls of one `flash_reader` come to. -/
structure ReadCalls where
  /-- The partition `esp_partition_find_first` finds by its label, `RSA_crt` or `RSA_key`. -/
  partition : Bool → Option Cells
  readRet : Int
  /-- The memory around what `malloc` returns. -/
  heap : Cells
  derivation : Derivation

/-- What `flash_reader` returns, the memory it has written, and the buffer it has used. -/
structure FlashRead where
  length : Nat
  output : Cells
  buffer : Ram UInt8

/-- `memcpy` to the start of a memory. -/
def memcpy (dest : Cells) (src : Ram UInt8) (length : Nat) : Cells :=
  fun i => if i < length then src.cell i else dest i

/-- The loop of `flash_reader` that looks for the end of the key, from a value of `i` on. -/
def scanMarker (buffer : Ram UInt8) (i : Nat) : (left : Nat) → Nat × Ram UInt8
  -- Without a marker the length keeps its first value.
  | 0 => (0, buffer)
  | left + 1 =>
    -- The four bytes tested stand behind the one at `i`.
    let (reached, buffer) := buffer.allAre 255 (i + 1) 4
    if reached then (i + 1, buffer.store (i + 1) 0) else scanMarker buffer (i + 1) left

/-- The buffer of `flash_reader` after `esp_flash_read`. -/
def readBuffer (calls : ReadCalls) (content : Cells) (flashSize : Nat) : Ram UInt8 :=
  Ram.fresh fun i => if i < flashSize then content i else calls.heap i

section
variable {calls : ReadCalls} {content : Cells} {flashSize i : Nat}

/-- The buffer starts with what was read. -/
theorem readBuffer_inside (inside : i < flashSize) :
    (readBuffer calls content flashSize).cell i = content i := by
  simp [readBuffer, inside]

/-- Around what was read stands what stood there before. -/
theorem readBuffer_outside (outside : ¬ i < flashSize) :
    (readBuffer calls content flashSize).cell i = calls.heap i := by
  simp [readBuffer, outside]

end

/-- `flash_reader` -/
def flashReader (lib : Mbedtls) (nul : UInt8) (calls : ReadCalls) (output : Cells)
    (flashSize : Nat) (label : Bool) : FlashRead :=
  match calls.partition label with
  | none => ⟨0, output, Ram.fresh calls.heap⟩
  | some content =>
    if calls.readRet ≠ 0 then ⟨0, output, Ram.fresh calls.heap⟩
    else
      let (length, buffer) := scanMarker (readBuffer calls content flashSize) 0 flashSize
      -- A length of zero is decrypted like any other.
      let (length, buffer) := stringWithAES lib nul calls.derivation buffer length true
      ⟨length, memcpy output buffer length, buffer⟩

/-- The calls of a `flash_reader` that finds its partition and derives a key, in a cleared heap. -/
def quietRead (content : Cells) : ReadCalls where
  partition _ := some content
  readRet := 0
  heap _ := 0
  derivation := ⟨0, Vector.replicate 32 7⟩

/-- Four bytes 255 in a row, which is how the end of a key is told. -/
def Marker (cells : Cells) (p : Nat) : Prop := ∀ j < 4, cells (p + j) = 255

instance (cells : Cells) : DecidablePred (Marker cells) :=
  fun p => inferInstanceAs (Decidable (∀ j < 4, cells (p + j) = 255))

/-- The first marker behind a byte. -/
structure FirstMarker (cells : Cells) (i p : Nat) : Prop where
  behind : i < p
  marker : Marker cells p
  first : ∀ q, i < q → q < p → ¬ Marker cells q

/-- A marker behind a byte is the first one or stands behind the first one. -/
theorem firstMarker_of_marker {cells : Cells} {i p : Nat} (behind : i < p)
    (marker : Marker cells p) : ∃ q, q ≤ p ∧ FirstMarker cells i q := by
  -- The smallest of the places with a marker is the first.
  have some : ∃ q, i < q ∧ Marker cells q := ⟨p, behind, marker⟩
  refine ⟨Nat.find some, Nat.find_min' some ⟨behind, marker⟩, (Nat.find_spec some).1,
    (Nat.find_spec some).2, fun q after before holds => ?_⟩
  exact Nat.find_min some before ⟨after, holds⟩

/-- There is one first marker. -/
theorem FirstMarker.unique {cells : Cells} {i p q : Nat} (first : FirstMarker cells i p)
    (other : FirstMarker cells i q) : p = q := by
  -- The earlier of two first markers would come before the other one.
  rcases Nat.lt_trichotomy p q with before | same | after
  · exact absurd first.marker (other.first p first.behind before)
  · exact same
  · exact absurd other.marker (first.first q other.behind after)

section
variable {buffer : Ram UInt8} {i p left : Nat}

/-- One pass of the loop finds the marker behind `i`, or goes on. -/
theorem scanMarker_succ :
    scanMarker buffer i (left + 1) =
      if Marker buffer.cell (i + 1) then
        (i + 1, (Ram.allAre 255 buffer (i + 1) 4).2.store (i + 1) 0)
      else scanMarker (Ram.allAre 255 buffer (i + 1) 4).2 (i + 1) left := by
  -- The four tests together ask for a marker.
  have tested := @Ram.allAre_value _ _ buffer 255 (i + 1) 4
  rw [scanMarker]
  dsimp only
  split_ifs with found marker marker
  · rfl
  · exact absurd (tested.mp found) marker
  · exact absurd (tested.mpr marker) found
  · rfl

/-- The loop reaches the first marker, tests it and puts a zero there. -/
theorem scanMarker_found (first : FirstMarker buffer.cell i p) (reached : p ≤ i + left) :
    ∃ scanned : Ram UInt8, scanned.cell = buffer.cell ∧
      (∀ k ∈ scanned.touched, k ∈ buffer.touched ∨ k < p + 4) ∧
        scanMarker buffer i left = (p, (Ram.allAre 255 scanned p 4).2.store p 0) := by
  -- Every pass before that finds no marker and changes nothing.
  induction left generalizing buffer i with
  | zero => exact absurd first.behind (by omega)
  | succ left ih =>
    have behind := first.behind
    rw [scanMarker_succ]
    split_ifs with marker
    · have here : i + 1 = p := by
        by_contra apart
        exact first.first (i + 1) (by omega) (by omega) marker
      exact ⟨buffer, rfl, fun k touched => .inl touched, by rw [here]⟩
    · have onward : i + 1 < p := by
        have apart : i + 1 ≠ p := fun here => marker (here ▸ first.marker)
        omega
      have later : FirstMarker (Ram.allAre 255 buffer (i + 1) 4).2.cell (i + 1) p := by
        rw [Ram.allAre_cell]
        exact ⟨onward, first.marker, fun q after => first.first q (by omega)⟩
      obtain ⟨scanned, same, bound, ends⟩ := ih later (by omega)
      refine ⟨scanned, by rw [same, Ram.allAre_cell], fun k touched => ?_, ends⟩
      -- The four bytes tested end before the marker does.
      rcases bound k touched with tested | inside
      · exact (Ram.bound_of_mem_allAre tested).imp_right (by omega)
      · exact .inr inside

/-- Without a marker in reach the length stays zero. -/
theorem scanMarker_none (none : ∀ q, i < q → q ≤ i + left → ¬ Marker buffer.cell q) :
    (scanMarker buffer i left).1 = 0 ∧ (scanMarker buffer i left).2.cell = buffer.cell := by
  induction left generalizing buffer i with
  | zero => exact ⟨rfl, rfl⟩
  | succ left ih =>
    -- The first pass changes nothing, and the others find nothing either.
    rw [scanMarker_succ, if_neg (none (i + 1) (by omega) (by omega))]
    have later : ∀ q, i + 1 < q → q ≤ i + 1 + left →
        ¬ Marker (Ram.allAre 255 buffer (i + 1) 4).2.cell q := by
      rw [Ram.allAre_cell]
      exact fun q after within => none q (by omega) (by omega)
    rw [(ih later).1, (ih later).2, Ram.allAre_cell]
    exact ⟨rfl, rfl⟩

/-- What was touched before the loop stays touched. -/
theorem mem_scanMarker_of_mem {k : Nat} (touched : k ∈ buffer.touched) :
    k ∈ (scanMarker buffer i left).2.touched := by
  induction left generalizing buffer i with
  | zero => exact touched
  | succ left ih =>
    have tested : k ∈ (Ram.allAre 255 buffer (i + 1) 4).2.touched := Ram.mem_allAre_of_mem touched
    rw [scanMarker_succ]
    split_ifs
    · simp [tested]
    · exact ih tested

/-- A loop that finds no marker touches the byte behind the last value of `i`. -/
theorem mem_scanMarker_none
    (none : ∀ q, i < q → q ≤ i + (left + 1) → ¬ Marker buffer.cell q) :
    i + (left + 1) ∈ (scanMarker buffer i (left + 1)).2.touched := by
  induction left generalizing buffer i with
  | zero =>
    rw [scanMarker_succ, if_neg (none (i + 1) (by omega) (by omega))]
    exact mem_scanMarker_of_mem Ram.first_mem_allAre
  | succ left ih =>
    -- The byte is the one behind the last value in the passes that remain.
    have shifted : i + (left + 1 + 1) = i + 1 + (left + 1) := by omega
    rw [scanMarker_succ, if_neg (none (i + 1) (by omega) (by omega)), shifted]
    refine ih ?_
    rw [Ram.allAre_cell]
    exact fun q after within => none q (by omega) (by omega)

end

end Rfid
