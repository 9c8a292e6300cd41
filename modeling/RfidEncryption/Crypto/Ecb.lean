import Mathlib.Data.List.OfFn
import RfidEncryption.Memory.Ram

/-! A text cut into blocks of one width, and the mode that transforms each block on its own. -/

namespace Ecb

variable {α : Type*} {width : Nat}

/-- A place in a block is a place in the text. -/
theorem place_lt {length k j : Nat} (block : k < length / width) (inside : j < width) :
    k * width + j < length := by
  -- The block ends before the last one does.
  have next : (k + 1) * width ≤ length / width * width := Nat.mul_le_mul_right width block
  have last := Nat.div_mul_le_self length width
  rw [Nat.succ_mul] at next
  omega

/-- The blocks of a text, from the first one on, without what does not fill a block. -/
def blocks (width : Nat) (text : List α) : List (Vector α width) :=
  List.ofFn fun k : Fin (text.length / width) =>
    Vector.ofFn fun j => text.get ⟨k.val * width + j.val, place_lt k.isLt j.isLt⟩

/-- Every block of a text transformed on its own, one behind the other. -/
def ecb (f : Vector α width → Vector α width) (text : List α) : List α :=
  (blocks width text).flatMap fun block => (f block).toList

section
variable {text result : List α}

@[simp] theorem blocks_length (width : Nat) (text : List α) :
    (blocks width text).length = text.length / width := by
  simp [blocks]

/-- A block holds the symbols of the text from the place where it starts. -/
theorem blocks_getElem {k j : Nat} (block : k < text.length / width) (inside : j < width) :
    ((blocks width text).get ⟨k, by simpa using block⟩)[j] =
      text.get ⟨k * width + j, place_lt block inside⟩ := by
  simp [blocks]

/-- The blocks of a text of whole blocks make up the text. -/
theorem flatMap_blocks (whole : text.length % width = 0) :
    (blocks width text).flatMap Vector.toList = text := by
  have length : text.length / width * width = text.length :=
    Nat.div_mul_cancel (Nat.dvd_of_mod_eq_zero whole)
  -- The text is listed block by block.
  calc (blocks width text).flatMap Vector.toList
      = (List.ofFn fun k : Fin (text.length / width) => List.ofFn fun j : Fin width =>
          text.get ⟨k.val * width + j.val, place_lt k.isLt j.isLt⟩).flatten := by
        simp only [blocks, List.flatMap_def, List.map_ofFn, Function.comp_def, Vector.toList_ofFn]
    _ = List.ofFn fun i : Fin (text.length / width * width) => text.get (i.cast length) := by
        rw [List.ofFn_mul]
        rfl
    _ = text := by
        rw [List.ofFn_congr length]
        simp

/-- A text whose blocks are those of another, transformed, is the other one in that mode. -/
theorem eq_ecb {f : Vector α width → Vector α width} (whole : result.length % width = 0)
    (each : blocks width result = (blocks width text).map f) : result = ecb f text := by
  rw [← flatMap_blocks whole, each, List.flatMap_map, ecb]

end

end Ecb

namespace Memory.Ram

section
variable {α : Type*} {width : Nat} (m : Ram α) (count : Nat)

/-- The blocks of the first cells are the blocks of the memory. -/
theorem blocks_window (positive : 0 < width) :
    Ecb.blocks width (m.window 0 (count * width)) =
      List.ofFn fun k : Fin count => m.block (k.val * width) width := by
  have full : (m.window 0 (count * width)).length / width = count := by
    rw [window_length, Nat.mul_div_cancel _ positive]
  refine List.ext_getElem (by simpa using full) fun k listed inside => ?_
  rw [List.length_ofFn] at inside
  refine Vector.ext fun j within => ?_
  -- Both list the cells from the start of the block on.
  have cell := Ecb.blocks_getElem (show k < (m.window 0 (count * width)).length / width by
    rwa [full]) within
  simp only [List.get_eq_getElem] at cell
  rw [cell, List.getElem_ofFn, block_getElem within]
  simp [window]

/-- Transforming blocks in place leaves the text they held in that mode. -/
theorem window_mapBlocks (positive : 0 < width) (f : Vector α width → Vector α width) :
    (m.mapBlocks f count).window 0 (count * width) =
      Ecb.ecb f (m.window 0 (count * width)) := by
  apply Ecb.eq_ecb
  · rw [window_length, Nat.mul_mod_left]
  · -- Each block was transformed on its own.
    rw [blocks_window _ _ positive, blocks_window _ _ positive, List.map_ofFn]
    congr 1
    funext k
    exact mapBlocks_block k.isLt

end

end Memory.Ram
