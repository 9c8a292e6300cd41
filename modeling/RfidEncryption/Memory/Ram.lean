import Mathlib.Data.Vector.Basic
import Mathlib.Logic.Function.Basic

/-! Memory that remembers which of its cells were touched, and blocks transformed in place. -/

namespace Memory

variable {α : Type*}

/-- Cells counted from the start of a buffer, and those read or written so far, the latest first. -/
structure Ram (α : Type*) where
  cell : Nat → α
  touched : List Nat

namespace Ram

variable (m : Ram α)

/-- Memory nobody has touched yet. -/
def fresh (cell : Nat → α) : Ram α := ⟨cell, []⟩

/-- Reading a cell. -/
def load (i : Nat) : α × Ram α := (m.cell i, { m with touched := i :: m.touched })

/-- Writing a cell. -/
def store (i : Nat) (value : α) : Ram α := ⟨Function.update m.cell i value, i :: m.touched⟩

/-- Reading a row of cells, one after the other. -/
def loads (start : Nat) : (count : Nat) → Vector α count × Ram α
  | 0 => (#v[], m)
  | count + 1 =>
    let (front, m) := loads start count
    let (last, m) := m.load (start + count)
    (front.push last, m)

/-- Writing a row of cells, one after the other. -/
def stores (start : Nat) : List α → Ram α → Ram α
  | [], m => m
  | value :: rest, m => stores (start + 1) rest (m.store start value)

/-- Whether a row of cells all hold a value, tested until one of them does not. -/
def allAre [DecidableEq α] (value : α) (m : Ram α) (start : Nat) : (count : Nat) → Bool × Ram α
  | 0 => (true, m)
  | count + 1 =>
    let (first, m) := m.load start
    if first = value then allAre value m (start + 1) count else (false, m)

/-- The cells of a block, as they are. -/
def block (start width : Nat) : Vector α width := Vector.ofFn fun j => m.cell (start + j)

/-- The cells of a row, as they are. -/
def window (start count : Nat) : List α := (List.range count).map fun j => m.cell (start + j)

/-- Every block transformed in place, from the first one on. -/
def mapBlocks {width : Nat} (f : Vector α width → Vector α width) : Nat → Ram α
  | 0 => m
  | count + 1 =>
    -- Each block is read as a whole before it is written.
    let m := mapBlocks f count
    let (temp, m) := m.loads (count * width) width
    m.stores (count * width) (f temp).toList

section
variable (i start count : Nat) (value : α) (values : List α)

@[simp] theorem fresh_cell (cell : Nat → α) : (fresh cell).cell = cell := rfl

@[simp] theorem fresh_touched (cell : Nat → α) : (fresh cell).touched = [] := rfl

@[simp] theorem load_value : (m.load i).1 = m.cell i := rfl

@[simp] theorem load_cell : (m.load i).2.cell = m.cell := rfl

@[simp] theorem load_touched : (m.load i).2.touched = i :: m.touched := rfl

@[simp] theorem store_cell : (m.store i value).cell = Function.update m.cell i value := rfl

@[simp] theorem store_touched : (m.store i value).touched = i :: m.touched := rfl

/-- Reading a row changes no cell. -/
@[simp] theorem loads_cell : (m.loads start count).2.cell = m.cell := by
  induction count with
  | zero => rfl
  | succ count ih => simp [loads, ih]

/-- Reading a row gives its cells. -/
@[simp] theorem loads_value : (m.loads start count).1 = m.block start count := by
  -- The last cell of the row is read last.
  induction count with
  | zero => simp [loads, block]
  | succ count ih =>
    simp only [loads, ih, loads_cell, load_value, block]
    rw [Vector.ofFn_succ]
    rfl

/-- Reading a row touches its cells. -/
theorem mem_loads_touched :
    i ∈ (m.loads start count).2.touched ↔ i ∈ m.touched ∨ start ≤ i ∧ i < start + count := by
  induction count with
  | zero => simp [loads]
  | succ count ih =>
    simp only [loads, load_touched, List.mem_cons, ih]
    rw [or_left_comm]
    exact or_congr_right (by omega)

/-- A row is read from its first cell on. -/
theorem loads_succ :
    (m.loads start (count + 1)).2 = ((m.load start).2.loads (start + 1) count).2 := by
  induction count with
  | zero => rfl
  | succ count ih =>
    rw [loads]
    dsimp only
    rw [ih]
    simp [loads, Nat.add_assoc, Nat.add_comm 1]

/-- Writing a row changes no cell outside it. -/
theorem stores_outside {m : Ram α} {start : Nat} {values : List α}
    (outside : i < start ∨ start + values.length ≤ i) :
    (stores start values m).cell i = m.cell i := by
  -- Each write leaves the cells before and behind it.
  induction values generalizing m start with
  | nil => rfl
  | cons value rest ih =>
    simp only [List.length_cons] at outside
    rw [stores, ih (by omega), store_cell, Function.update_of_ne (by omega)]

/-- A row that was written holds what was written. -/
theorem stores_inside {m : Ram α} {start j : Nat} {values : List α} (inside : j < values.length) :
    (stores start values m).cell (start + j) = values[j] := by
  -- The first value is written first, and no later write reaches it.
  induction values generalizing m start j with
  | nil => exact absurd inside (by simp)
  | cons value rest ih =>
    cases j with
    | zero => rw [stores, stores_outside _ (by omega), store_cell]; simp
    | succ j =>
      have shifted : start + (j + 1) = start + 1 + j := by omega
      simp only [List.length_cons] at inside
      rw [stores, shifted, ih (by omega), List.getElem_cons_succ]

/-- Writing a row touches its cells. -/
theorem mem_stores_touched {m : Ram α} :
    i ∈ (stores start values m).touched ↔
      i ∈ m.touched ∨ start ≤ i ∧ i < start + values.length := by
  induction values generalizing m start with
  | nil => simp [stores]
  | cons value rest ih =>
    simp only [stores, ih, store_touched, List.mem_cons, List.length_cons]
    rw [or_assoc, or_left_comm]
    exact or_congr_right (by omega)

end

/-- Every cell that was touched so far lies in front of a size. -/
def Within (size : Nat) : Prop := ∀ i ∈ m.touched, i < size

section
variable (size i start count : Nat) (values : List α)

@[simp] theorem within_fresh (cell : Nat → α) : (fresh cell).Within size := by
  simp [Within]

@[simp] theorem within_load : (m.load i).2.Within size ↔ m.Within size ∧ i < size := by
  simp [Within, and_comm]

/-- A row that is read stays in front of a size when it ends there, or is empty. -/
@[simp] theorem within_loads :
    (m.loads start count).2.Within size ↔ m.Within size ∧ (count = 0 ∨ start + count ≤ size) := by
  simp only [Within, mem_loads_touched]
  constructor
  · refine fun inside => ⟨fun i touched => inside i (.inl touched), ?_⟩
    rcases Nat.eq_zero_or_pos count with none | some
    · exact .inl none
    · have last := inside (start + count - 1) (.inr (by omega))
      exact .inr (by omega)
  · rintro ⟨before, row⟩ i (touched | inside)
    · exact before i touched
    · omega

/-- A row that is written stays in front of a size when it ends there, or is empty. -/
@[simp] theorem within_stores :
    (stores start values m).Within size ↔
      m.Within size ∧ (values.length = 0 ∨ start + values.length ≤ size) := by
  simp only [Within, mem_stores_touched]
  constructor
  · refine fun inside => ⟨fun i touched => inside i (.inl touched), ?_⟩
    rcases Nat.eq_zero_or_pos values.length with none | some
    · exact .inl none
    · have last := inside (start + values.length - 1) (.inr (by omega))
      exact .inr (by omega)
  · rintro ⟨before, row⟩ i (touched | inside)
    · exact before i touched
    · omega

end

section
variable [DecidableEq α] {m : Ram α} {value : α} {i start count : Nat}

/-- Testing a row changes no cell. -/
@[simp] theorem allAre_cell : (allAre value m start count).2.cell = m.cell := by
  induction count generalizing m start with
  | zero => rfl
  | succ count ih =>
    rw [allAre]
    dsimp only
    split
    · rw [ih, load_cell]
    · rfl

/-- The test succeeds when every cell of the row holds the value. -/
theorem allAre_value :
    (allAre value m start count).1 = true ↔ ∀ j < count, m.cell (start + j) = value := by
  induction count generalizing m start with
  | zero => simp [allAre]
  | succ count ih =>
    -- The first cell is tested, and then the row behind it.
    have rest : (∀ j < count + 1, m.cell (start + j) = value) ↔
        m.cell start = value ∧ ∀ j < count, m.cell (start + 1 + j) = value := by
      rw [Nat.forall_lt_succ_left]
      simp [Nat.add_assoc, Nat.add_comm 1]
    rw [allAre, rest]
    dsimp only [load_value]
    split_ifs with same
    · simp [ih, same]
    · simp [same]

/-- The test touches cells of the row only. -/
theorem bound_of_mem_allAre (touched : i ∈ (allAre value m start count).2.touched) :
    i ∈ m.touched ∨ start ≤ i ∧ i < start + count := by
  induction count generalizing m start with
  | zero => exact .inl touched
  | succ count ih =>
    rw [allAre] at touched
    dsimp only at touched
    split_ifs at touched
    · rcases ih touched with before | inside
      · rw [load_touched, List.mem_cons] at before
        exact before.symm.imp_right (by omega)
      · exact .inr (by omega)
    · rw [load_touched, List.mem_cons] at touched
      exact touched.symm.imp_right (by omega)

/-- What was touched before the test stays touched. -/
theorem mem_allAre_of_mem (touched : i ∈ m.touched) :
    i ∈ (allAre value m start count).2.touched := by
  induction count generalizing m start with
  | zero => exact touched
  | succ count ih =>
    rw [allAre]
    dsimp only
    split_ifs
    · exact ih (by simp [touched])
    · simp [touched]

/-- The test touches the first cell of the row. -/
theorem first_mem_allAre : start ∈ (allAre value m start (count + 1)).2.touched := by
  rw [allAre]
  dsimp only
  split_ifs
  · exact mem_allAre_of_mem (by simp)
  · simp

/-- A test that succeeds touches every cell of the row. -/
theorem mem_allAre_of_value (succeeds : (allAre value m start count).1 = true) {j : Nat}
    (inside : j < count) : start + j ∈ (allAre value m start count).2.touched := by
  induction count generalizing m start j with
  | zero => exact absurd inside (by simp)
  | succ count ih =>
    cases j with
    | zero => exact first_mem_allAre
    | succ j =>
      -- The cells behind the first are touched by the rest of the test.
      have shifted : start + (j + 1) = start + 1 + j := by omega
      rw [allAre] at succeeds ⊢
      dsimp only at succeeds ⊢
      split_ifs at succeeds ⊢
      rw [shifted]
      exact ih succeeds (by omega)

end

section
variable {m : Ram α} {width count : Nat} {f g : Vector α width → Vector α width}

/-- Blocks with the same cells are the same. -/
theorem block_congr {m' : Ram α} {start width : Nat}
    (same : ∀ j < width, m.cell (start + j) = m'.cell (start + j)) :
    m.block start width = m'.block start width := by
  refine Vector.ext fun j inside => ?_
  simpa [block] using same j inside

/-- A row holds a list when each of its cells holds an element of it. -/
theorem window_eq_iff {start : Nat} {values : List α} :
    m.window start values.length = values ↔
      ∀ j (inside : j < values.length), m.cell (start + j) = values[j] := by
  constructor
  · intro holds j inside
    have cell := List.getElem_of_eq holds (i := j) (by simpa [window] using inside)
    simpa [window] using cell
  · intro holds
    refine List.ext_getElem (by simp [window]) fun j _ inside => ?_
    simpa [window] using holds j inside

/-- A row starts with its first cell. -/
theorem window_succ (start : Nat) :
    m.window start (count + 1) = m.cell start :: m.window (start + 1) count := by
  simp [window, List.range_succ_eq_map, Nat.add_assoc, Nat.add_comm 1]

@[simp] theorem window_length (start : Nat) : (m.window start count).length = count := by
  simp [window]

/-- A row that was written is read as what was written. -/
theorem window_stores (start : Nat) (values : List α) :
    (stores start values m).window start values.length = values :=
  window_eq_iff.mpr fun _ inside => stores_inside inside

/-- A block is read off a list that the memory starts with. -/
theorem block_getElem {start j : Nat} (inside : j < width) :
    (m.block start width)[j] = m.cell (start + j) := by
  simp [block]

/-- A row in two parts is written part by part. -/
theorem stores_append (start : Nat) (front rest : List α) :
    stores start (front ++ rest) m = stores (start + front.length) rest (stores start front m) := by
  induction front generalizing m start with
  | nil => rfl
  | cons value front ih =>
    rw [List.cons_append, stores, stores, ih, List.length_cons, Nat.add_assoc, Nat.add_comm 1]

/-- A block and a row of its size hold the same cells. -/
theorem block_toList (start : Nat) : (m.block start width).toList = m.window start width := by
  refine List.ext_getElem (by simp) fun j inside _ => ?_
  simp [block, window]

@[simp] theorem block_load (i start : Nat) :
    (m.load i).2.block start width = m.block start width := rfl

@[simp] theorem block_loads (i count start : Nat) :
    (m.loads i count).2.block start width = m.block start width := by
  simp [block]

/-- A block that was written is read as what was written. -/
theorem block_stores (start : Nat) (values : Vector α width) :
    (stores start values.toList m).block start width = values := by
  refine Vector.ext fun j inside => ?_
  rw [block_getElem inside, stores_inside (by simpa using inside), Vector.getElem_toList]

/-- Rows with the same cells are the same. -/
theorem window_congr {m' : Ram α} {start : Nat}
    (same : ∀ j < count, m.cell (start + j) = m'.cell (start + j)) :
    m.window start count = m'.window start count :=
  List.map_congr_left fun j listed => same j (List.mem_range.mp listed)

/-- The last element of a row that starts the memory is the cell before its end. -/
theorem window_getLast? (positive : 0 < count) :
    (m.window 0 count).getLast? = some (m.cell (count - 1)) := by
  have inside : count - 1 < count := by omega
  rw [List.getLast?_eq_getElem?, window_length]
  simp [window, inside]

/-- Cells behind the blocks stay as they are. -/
theorem mapBlocks_outside {i : Nat} (outside : count * width ≤ i) :
    (m.mapBlocks f count).cell i = m.cell i := by
  induction count with
  | zero => rfl
  | succ count ih =>
    rw [Nat.succ_mul] at outside
    simp only [mapBlocks]
    rw [stores_outside _ (by simp; omega), loads_cell, ih (by omega)]

/-- Each block is transformed on its own. -/
theorem mapBlocks_block {k : Nat} (inside : k < count) :
    (m.mapBlocks f count).block (k * width) width = f (m.block (k * width) width) := by
  induction count with
  | zero => exact absurd inside (by simp)
  | succ count ih =>
    -- The cells of the block are those of the last one or of one before it.
    rcases Nat.lt_succ_iff_lt_or_eq.mp inside with before | rfl
    · rw [← ih before]
      refine block_congr fun j within => ?_
      have apart : (k + 1) * width ≤ count * width := Nat.mul_le_mul_right width before
      rw [Nat.succ_mul] at apart
      simp only [mapBlocks]
      rw [stores_outside _ (by simp; omega), loads_cell]
    · -- Nothing has touched the last block before.
      have untouched : (m.mapBlocks f k).block (k * width) width = m.block (k * width) width :=
        block_congr fun j _ => mapBlocks_outside (by omega)
      refine Vector.ext fun j within => ?_
      rw [block_getElem within, mapBlocks]
      simp only [loads_value, untouched]
      rw [stores_inside (by simpa using within), Vector.getElem_toList]

/-- The transformation touches the cells of the blocks. -/
theorem mem_mapBlocks_touched {i : Nat} :
    i ∈ (m.mapBlocks f count).touched ↔ i ∈ m.touched ∨ i < count * width := by
  induction count with
  | zero => simp [mapBlocks]
  | succ count ih =>
    simp only [mapBlocks, mem_stores_touched, mem_loads_touched, ih, Nat.succ_mul,
      Vector.length_toList, or_assoc]
    exact or_congr_right (by omega)

/-- Undoing the transformation of each block restores every cell. -/
theorem mapBlocks_inverse (undoes : ∀ block, g (f block) = block) :
    ((m.mapBlocks f count).mapBlocks g count).cell = m.cell := by
  funext i
  by_cases behind : count * width ≤ i
  · rw [mapBlocks_outside behind, mapBlocks_outside behind]
  · -- The cell is one of a block, which is restored as a whole.
    have positive : 0 < width := by
      by_contra zero
      simp [Nat.eq_zero_of_not_pos zero] at behind
    have within : i / width < count := Nat.div_lt_of_lt_mul (by rw [Nat.mul_comm]; omega)
    have restored : ((m.mapBlocks f count).mapBlocks g count).block (i / width * width) width =
        m.block (i / width * width) width := by
      rw [mapBlocks_block within, mapBlocks_block within, undoes]
    have inside := Nat.mod_lt i positive
    have cell := congrArg (fun row : Vector α width => row[i % width]) restored
    simpa [block, Nat.div_add_mod'] using cell

end

end Ram

end Memory
