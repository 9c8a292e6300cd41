import Mathlib.Data.List.Induction
import Mathlib.Data.List.Basic

/-! Deterministic machines that answer one input at a time, and the runs they make. -/

namespace Reactive

variable {σ ι ο τ κ π : Type*}

/-- A machine whose every input moves its state once and is answered at once. -/
structure Machine (σ ι ο : Type*) where
  step : σ → ι → σ × ο

namespace Machine

variable (m : Machine σ ι ο)

/-- The state one input leads to. -/
def next (s : σ) (i : ι) : σ := (m.step s i).1

/-- The answer one input receives. -/
def answer (s : σ) (i : ι) : ο := (m.step s i).2

/-- The state a run ends in, its inputs listed in the order they arrive. -/
def after (s : σ) (run : List ι) : σ := run.foldl m.next s

/-- The answers of a run, in the order they are given. -/
def answers : σ → List ι → List ο
  | _, [] => []
  | s, i :: run => m.answer s i :: answers (m.next s i) run

@[simp] theorem after_nil (s : σ) : m.after s [] = s := rfl

@[simp] theorem after_cons (s : σ) (i : ι) (run : List ι) :
    m.after s (i :: run) = m.after (m.next s i) run := rfl

/-- A run in two parts continues from the state the first part ends in. -/
@[simp] theorem after_append (s : σ) (done rest : List ι) :
    m.after s (done ++ rest) = m.after (m.after s done) rest := by
  -- Folding an appended list folds its second part from the first part's result.
  simp [after]

/-- Every step of the run, taken from the state it starts in, meets a condition. -/
def Along (C : σ → ι → Prop) : σ → List ι → Prop
  -- Nothing is asked of a run that has ended.
  | _, [] => True
  -- The next input meets it here, and the others where that input leads.
  | s, i :: run => C s i ∧ Along C (m.next s i) run

instance decidableAlong (C : σ → ι → Prop) [∀ s i, Decidable (C s i)] :
    ∀ s run, Decidable (m.Along C s run)
  | _, [] => inferInstanceAs (Decidable True)
  | s, i :: run =>
    have := decidableAlong C (m.next s i) run
    inferInstanceAs (Decidable (C s i ∧ _))

@[simp] theorem along_nil (C : σ → ι → Prop) (s : σ) : m.Along C s [] = True := rfl

@[simp] theorem along_cons (C : σ → ι → Prop) (s : σ) (i : ι) (run : List ι) :
    m.Along C s (i :: run) = (C s i ∧ m.Along C (m.next s i) run) := rfl

/-- A condition met along a run in two parts is met along each of them. -/
theorem along_append {C : σ → ι → Prop} {s : σ} {done rest : List ι} :
    m.Along C s (done ++ rest) ↔ m.Along C s done ∧ m.Along C (m.after s done) rest := by
  -- The first part's states are those of the whole run, step by step.
  induction done generalizing s with
  | nil => simp
  | cons i done ih => simp [ih, and_assoc]

/-- A condition met at every step whatsoever is met along every run. -/
theorem along_of_forall {C : σ → ι → Prop} (all : ∀ s i, C s i) (s : σ) (run : List ι) :
    m.Along C s run := by
  -- The condition needs no state, so the induction only walks along the run.
  induction run generalizing s with
  | nil => trivial
  | cons i run ih => exact ⟨all s i, ih _⟩

/-- Two conditions are met along a run together exactly when each of them is. -/
theorem along_and {C D : σ → ι → Prop} {s : σ} {run : List ι} :
    m.Along (fun s i => C s i ∧ D s i) s run ↔ m.Along C s run ∧ m.Along D s run := by
  -- Both sides ask about the first step and about the rest.
  induction run generalizing s with
  | nil => simp
  | cons i run ih =>
    rw [along_cons, along_cons, along_cons, ih]
    exact and_and_and_comm

/-- A condition is met along a run exactly when each of its inputs meets it where it arrives. -/
theorem along_iff_forall {C : σ → ι → Prop} {s : σ} {run : List ι} :
    m.Along C s run ↔ ∀ done i, done ++ [i] <+: run → C (m.after s done) i := by
  constructor
  · -- An input and what came before it are the front of the run.
    intro along done i initial
    obtain ⟨rest, rfl⟩ := initial
    rw [along_append, along_append] at along
    exact along.1.2.1
  · intro met
    -- The first input has nothing before it.
    induction run generalizing s with
    | nil => trivial
    | cons i run ih =>
      -- The inputs behind the first one are those of the rest of the run.
      refine ⟨met [] i (by simp), ih fun done j initial => ?_⟩
      exact met (i :: done) j (by simpa using initial)

/-- A property kept by every step that meets a condition survives a run that meets it. -/
theorem after_invariant {I : σ → Prop} {C : σ → ι → Prop}
    (keep : ∀ s i, I s → C s i → I (m.next s i)) {s : σ} {run : List ι} (start : I s)
    (along : m.Along C s run) : I (m.after s run) := by
  -- The run is taken apart from its first step, whose result starts the rest.
  induction run generalizing s with
  | nil => exact start
  | cons i run ih => exact ih (keep s i start along.1) along.2

/-- A property kept by every step holds after every run. -/
theorem after_always {I : σ → Prop} (keep : ∀ s i, I s → I (m.next s i)) {s : σ}
    (start : I s) (run : List ι) : I (m.after s run) :=
  -- The condition asked along the run is the trivial one.
  m.after_invariant (C := fun _ _ => True) (fun s i held _ => keep s i held) start
    (m.along_of_forall (fun _ _ => trivial) s run)

/--
A property holds throughout a run exactly when every step of it meets a condition.

The invariant carries the property as long as the condition is met.
The first step that fails the condition must break the property at once.
-/
theorem throughout_iff_along {I P : σ → Prop} {C : σ → ι → Prop}
    (sound : ∀ s, I s → P s) (keep : ∀ s i, I s → C s i → I (m.next s i))
    (breaks : ∀ s i, I s → ¬ C s i → ¬ P (m.next s i)) {s : σ} (start : I s)
    (run : List ι) :
    (∀ done, done <+: run → P (m.after s done)) ↔ m.Along C s run := by
  constructor
  · -- The property after the first step excludes a failure there, and the rest follows.
    intro holds
    induction run generalizing s with
    | nil => trivial
    | cons i run ih =>
      -- A first step that fails would already show after one input.
      have first : C s i := by
        by_contra fails
        exact breaks s i start fails (holds [i] (by simp))
      refine ⟨first, ih (keep s i start first) ?_⟩
      intro done initial
      exact holds (i :: done) (by simpa using initial)
  · -- Every prefix of the run meets the condition, so the invariant reaches its end.
    intro along done initial
    obtain ⟨rest, rfl⟩ := initial
    exact sound _ (m.after_invariant keep start (m.along_append.mp along).1)

/--
A run is sound at its end exactly when every step of it meets a condition.

The first step that fails the condition breaks what no later step repairs.
-/
theorem sound_or_broken {S C : σ → ι → Prop} {I B : σ → Prop}
    (keep : ∀ s i, I s → S s i → C s i → I (m.next s i))
    (breaks : ∀ s i, I s → S s i → ¬ C s i → B (m.next s i))
    (stuck : ∀ s i, B s → S s i → B (m.next s i)) {s : σ} {run : List ι} (start : I s)
    (setting : m.Along S s run) :
    m.Along C s run ∧ I (m.after s run) ∨ ¬ m.Along C s run ∧ B (m.after s run) := by
  -- The run is taken apart from its first step, which keeps the invariant or breaks it for good.
  induction run generalizing s with
  | nil => exact .inl ⟨trivial, start⟩
  | cons i run ih =>
    rw [after_cons]
    by_cases met : C s i
    · exact (ih (keep s i start setting.1 met) setting.2).imp
        (fun ⟨along, held⟩ => ⟨⟨met, along⟩, held⟩)
        (fun ⟨failed, broken⟩ => ⟨fun along => failed along.2, broken⟩)
    · -- Nothing after the failing step undoes it.
      have broken := breaks s i start setting.1 met
      exact .inr ⟨fun along => met along.1, m.after_invariant stuck broken setting.2⟩

/-- States related by a relation that answers alike and is kept give the same answers. -/
theorem answers_eq_of_related {R : σ → σ → Prop}
    (alike : ∀ s t i, R s t → m.answer s i = m.answer t i)
    (keep : ∀ s t i, R s t → R (m.next s i) (m.next t i)) {s t : σ} (related : R s t)
    (run : List ι) : m.answers s run = m.answers t run := by
  -- Each input is answered alike and leads to related states again.
  induction run generalizing s t with
  -- No input, no answer.
  | nil => rfl
  | cons i run ih => simp [answers, alike s t i related, ih (keep s t i related)]

/-- A state that some run from a set of starting states ends in. -/
def Reachable (start : σ → Prop) (s : σ) : Prop :=
  ∃ first run, start first ∧ m.after first run = s

/-- A property of the starting states that every step keeps holds of all reachable states. -/
theorem Reachable.invariant {start I : σ → Prop} (initial : ∀ s, start s → I s)
    (keep : ∀ s i, I s → I (m.next s i)) {s : σ} (reached : m.Reachable start s) : I s := by
  -- A reachable state is the end of some run.
  obtain ⟨first, run, begun, rfl⟩ := reached
  exact m.after_always keep (initial first begun) run

end Machine

/-- One step of a run: the state it started in, its input and the answer to it. -/
structure Entry (σ ι ο : Type*) where
  before : σ
  input : ι
  answer : ο

/-- A state together with the steps that led to it, the latest first. -/
structure Recorded (σ ι ο : Type*) where
  now : σ
  log : List (Entry σ ι ο)

namespace Machine

variable (m : Machine σ ι ο)

/-- The entry one input adds to the log. -/
def entry (s : σ) (i : ι) : Entry σ ι ο := ⟨s, i, m.answer s i⟩

@[simp] theorem entry_input (s : σ) (i : ι) : (m.entry s i).input = i := rfl

/-- The same machine, keeping a log of its steps. -/
def recorded : Machine (Recorded σ ι ο) ι ο where
  step r i := (⟨m.next r.now i, m.entry r.now i :: r.log⟩, m.answer r.now i)

@[simp] theorem recorded_next (r : Recorded σ ι ο) (i : ι) :
    m.recorded.next r i = ⟨m.next r.now i, m.entry r.now i :: r.log⟩ := rfl

@[simp] theorem recorded_answer (r : Recorded σ ι ο) (i : ι) :
    m.recorded.answer r i = m.answer r.now i := rfl

/-- Keeping a log does not change the states of a run. -/
@[simp] theorem recorded_after_now (r : Recorded σ ι ο) (run : List ι) :
    (m.recorded.after r run).now = m.after r.now run := by
  -- The log is carried along and never read.
  induction run generalizing r with
  | nil => rfl
  | cons i run ih => simp [ih]

/-- Keeping a log does not change which conditions on the states a run meets. -/
theorem recorded_along {C : σ → ι → Prop} {r : Recorded σ ι ο} {run : List ι} :
    m.recorded.Along (fun r i => C r.now i) r run ↔ m.Along C r.now run := by
  -- Each step is judged by the state, which the log does not change.
  induction run generalizing r with
  | nil => exact Iff.rfl
  | cons i run ih => exact and_congr_right fun _ => ih

/-- The steps of a run, the latest first. -/
def history (s : σ) (run : List ι) : List (Entry σ ι ο) :=
  (m.recorded.after ⟨s, []⟩ run).log

@[simp] theorem history_nil (s : σ) : m.history s [] = [] := rfl

/-- The latest step of a run stands before the steps that led to it. -/
theorem history_snoc (s : σ) (run : List ι) (i : ι) :
    m.history s (run ++ [i]) = m.entry (m.after s run) i :: m.history s run := by
  -- The log of a run in two parts is that of the first, added to by the second.
  simp [history]

/-- A recorded run is its last state and its history. -/
theorem recorded_after (s : σ) (run : List ι) :
    m.recorded.after ⟨s, []⟩ run = ⟨m.after s run, m.history s run⟩ := by
  -- The state does not depend on the log it starts with.
  rw [history]
  exact congrArg (fun now => Recorded.mk now _) (m.recorded_after_now ⟨s, []⟩ run)

/-- Every logged step of a run is one of its inputs, taken after the inputs before it. -/
theorem history_split {s : σ} {run : List ι} {e : Entry σ ι ο} {later earlier : List (Entry σ ι ο)}
    (logged : m.history s run = later ++ e :: earlier) :
    ∃ done i rest, run = done ++ i :: rest ∧ m.history s done = earlier ∧
      e = m.entry (m.after s done) i := by
  -- The run is taken apart from its latest input, whose step stands first in the log.
  induction run using List.reverseRecOn generalizing later with
  | nil => simp at logged
  | append_singleton run i ih =>
    -- The step is the latest one or one of those behind it.
    rw [history_snoc] at logged
    cases later with
    | nil =>
      obtain ⟨rfl, rfl⟩ := List.cons.inj logged
      exact ⟨run, i, [], rfl, rfl, rfl⟩
    | cons latest later =>
      obtain ⟨done, j, rest, rfl, before, entry⟩ := ih (List.cons.inj logged).2
      exact ⟨done, j, rest ++ [i], by simp, before, entry⟩

end Machine

/--
A machine followed step by step by a smaller one.

The smaller machine's input may depend on the state, as the verdict on a request does.
-/
structure Simulation (m : Machine σ ι ο) (n : Machine τ κ π) where
  state : σ → τ
  input : σ → ι → κ
  reply : ι → ο → π
  next : ∀ s i, state (m.next s i) = n.next (state s) (input s i)
  answer : ∀ s i, reply i (m.answer s i) = n.answer (state s) (input s i)

namespace Simulation

variable {m : Machine σ ι ο} {n : Machine τ κ π} (sim : Simulation m n)

/-- The smaller machine's inputs along a run. -/
def inputs : σ → List ι → List κ
  | _, [] => []
  | s, i :: run => sim.input s i :: inputs (m.next s i) run

/-- A logged step as the smaller machine sees it. -/
def entry (e : Entry σ ι ο) : Entry τ κ π :=
  ⟨sim.state e.before, sim.input e.before e.input, sim.reply e.input e.answer⟩

/-- A state and its log as the smaller machine sees them. -/
def record (r : Recorded σ ι ο) : Recorded τ κ π :=
  ⟨sim.state r.now, r.log.map sim.entry⟩

/-- Following one step keeps both the state and the log in agreement. -/
theorem record_next (r : Recorded σ ι ο) (i : ι) :
    sim.record (m.recorded.next r i) = n.recorded.next (sim.record r) (sim.input r.now i) := by
  -- The new state, the new entry's answer and the old log are each followed exactly.
  simp [record, entry, Machine.entry, sim.next, sim.answer]

/-- Following a whole run keeps both the state and the log in agreement. -/
theorem record_after (r : Recorded σ ι ο) (run : List ι) :
    sim.record (m.recorded.after r run) =
      n.recorded.after (sim.record r) (sim.inputs r.now run) := by
  -- The induction takes the run from its first step, as the machine does.
  induction run generalizing r with
  | nil => rfl
  | cons i run ih =>
    rw [Machine.after_cons, ih, sim.record_next]
    simp [inputs]

/-- The simulation between the two machines when both keep a log. -/
def recorded : Simulation m.recorded n.recorded where
  state := sim.record
  input r i := sim.input r.now i
  reply := sim.reply
  next := sim.record_next
  answer r i := sim.answer r.now i

/-- A property of the smaller machine holds throughout a run exactly when its condition is met. -/
theorem throughout_iff_along {I P : τ → Prop} {C : τ → κ → Prop}
    (sound : ∀ t, I t → P t) (keep : ∀ t k, I t → C t k → I (n.next t k))
    (breaks : ∀ t k, I t → ¬ C t k → ¬ P (n.next t k)) {s : σ} (start : I (sim.state s))
    (run : List ι) :
    (∀ done, done <+: run → P (sim.state (m.after s done))) ↔
      m.Along (fun s i => C (sim.state s) (sim.input s i)) s run := by
  -- Each fact about a step of the smaller machine is one about the step it follows.
  refine m.throughout_iff_along (I := fun s => I (sim.state s)) (P := fun s => P (sim.state s))
    (fun s held => sound _ held) ?_ ?_ start run
  · intro s i held met
    rw [sim.next]
    exact keep _ _ held met
  · intro s i held failed
    rw [sim.next]
    exact breaks _ _ held failed

end Simulation

end Reactive
