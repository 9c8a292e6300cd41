import Mathlib.Data.List.Basic
import Mathlib.Data.List.TakeWhile

/-! Questions about the past of a run, asked of a log that lists its latest entry first. -/

namespace Reactive

variable {ε δ : Type*}

/-- The entries later than the last one that stops the search, or all of them. -/
def sinceLast (stop : ε → Prop) [DecidablePred stop] (log : List ε) : List ε :=
  log.takeWhile fun e => !decide (stop e)

section
variable {stop : ε → Prop} [DecidablePred stop] {e : ε} {log : List ε}

@[simp] theorem sinceLast_nil : sinceLast stop [] = [] := rfl

/-- Nothing is later than a latest entry that stops the search. -/
@[simp] theorem sinceLast_stop (stopped : stop e) : sinceLast stop (e :: log) = [] := by
  simp [sinceLast, stopped]

/-- A latest entry that does not stop the search comes before what is found behind it. -/
@[simp] theorem sinceLast_pass (passed : ¬ stop e) :
    sinceLast stop (e :: log) = e :: sinceLast stop log := by
  simp [sinceLast, passed]

/-- Entries that do not stop the search stand before what is found behind them. -/
theorem sinceLast_append_of_forall_not {later : List ε} (free : ∀ e ∈ later, ¬ stop e) :
    sinceLast stop (later ++ log) = later ++ sinceLast stop log := by
  -- The later entries are passed over one by one.
  induction later with
  | nil => rfl
  | cons e later ih =>
    rw [List.cons_append, sinceLast_pass (free e (by simp)),
      ih (fun e found => free e (by simp [found]))]
    rfl

/-- An entry of a kind has a first occurrence, with none of the kind earlier. -/
theorem exists_earliest {kind : ε → Prop} {log : List ε} (found : ∃ e ∈ log, kind e) :
    ∃ later e earlier, log = later ++ e :: earlier ∧ kind e ∧ ∀ e ∈ earlier, ¬ kind e := by
  -- Either some entry behind the latest one is of the kind, or the latest is the only one.
  induction log with
  | nil => simp at found
  | cons latest log ih =>
    by_cases behind : ∃ e ∈ log, kind e
    · -- The first occurrence is behind the latest entry.
      obtain ⟨later, e, earlier, rfl, is, none⟩ := ih behind
      exact ⟨latest :: later, e, earlier, rfl, is, none⟩
    · -- Nothing behind the latest entry is of the kind.
      obtain ⟨e, member, is⟩ := found
      rcases List.mem_cons.mp member with rfl | member
      · exact ⟨[], e, log, rfl, is, fun d earlier isToo => behind ⟨d, earlier, isToo⟩⟩
      · exact absurd ⟨e, member, is⟩ behind

end

/-- Searching an image of the log is searching the log for what its image stops at. -/
theorem sinceLast_map (f : ε → δ) {stop : δ → Prop} {halt : ε → Prop} [DecidablePred stop]
    [DecidablePred halt] (same : ∀ e, stop (f e) ↔ halt e) (log : List ε) :
    sinceLast stop (log.map f) = (sinceLast halt log).map f := by
  -- Taking the front of a list commutes with mapping it.
  simp [sinceLast, List.takeWhile_map, Function.comp_def, same]

/-- How many entries of the log are of a kind. -/
def howMany (kind : ε → Prop) [DecidablePred kind] (log : List ε) : Nat :=
  log.countP fun e => decide (kind e)

section
variable {kind : ε → Prop} [DecidablePred kind] {e : ε} {log : List ε}

@[simp] theorem howMany_nil : howMany kind [] = 0 := rfl

/-- A latest entry of the kind adds one. -/
@[simp] theorem howMany_cons_of (is : kind e) : howMany kind (e :: log) = howMany kind log + 1 := by
  simp [howMany, is]

/-- A latest entry of another kind adds none. -/
@[simp] theorem howMany_cons_of_not (isNot : ¬ kind e) :
    howMany kind (e :: log) = howMany kind log := by
  simp [howMany, isNot]

/-- A later entry never lowers a count. -/
theorem howMany_le_append (later : List ε) : howMany kind log ≤ howMany kind (later ++ log) := by
  simp [howMany]

/-- The entries of an image of the log are counted by what their images are. -/
theorem howMany_map (f : δ → ε) {sort : δ → Prop} [DecidablePred sort]
    (same : ∀ d, kind (f d) ↔ sort d) (log : List δ) :
    howMany kind (log.map f) = howMany sort log := by
  -- Each entry is counted through its image.
  simp [howMany, List.countP_map, Function.comp_def, same]

end

end Reactive
