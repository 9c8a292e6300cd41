import RfidEncryption.Device.Program
import Mathlib.Tactic.SplitIfs

/-! What programs ask of their device, checked against every answer they can be given. -/

namespace Device

/-- A command and what it was answered. -/
abbrev Event (I : Interface) := (command : I.Command) × I.Answer command

/--
What may be asked of a device at any time.

The state is that of an observer, who sees every command and every answer.
-/
structure Contract (I : Interface) (τ : Type) where
  demand : τ → I.Command → Prop
  step : τ → (command : I.Command) → I.Answer command → τ

namespace Contract

variable {I : Interface} {τ : Type} (k : Contract I τ)

/-- What the observer has come to after some commands. -/
def after (t : τ) (events : List (Event I)) : τ := events.foldl (fun t e => k.step t e.1 e.2) t

/-- Each of some commands was one that could be asked for where it was given. -/
def Accepts : τ → List (Event I) → Prop
  | _, [] => True
  | t, e :: events => k.demand t e.1 ∧ Accepts (k.step t e.1 e.2) events

@[simp] theorem after_nil (t : τ) : k.after t [] = t := rfl

@[simp] theorem after_cons (t : τ) (e : Event I) (events : List (Event I)) :
    k.after t (e :: events) = k.after (k.step t e.1 e.2) events := rfl

@[simp] theorem after_append (t : τ) (done rest : List (Event I)) :
    k.after t (done ++ rest) = k.after (k.after t done) rest := by
  simp [after]

/-- A command that was accepted could be asked for after those before it. -/
theorem accepts_iff {t : τ} {events : List (Event I)} :
    k.Accepts t events ↔ ∀ done e, done ++ [e] <+: events → k.demand (k.after t done) e.1 := by
  constructor
  · -- A command is the first one, or one of the rest after that.
    intro accepted
    induction events generalizing t with
    | nil =>
      intro done e initial
      simp at initial
    | cons first events ih =>
      intro done e initial
      cases done with
      | nil =>
        obtain ⟨rfl, -⟩ := List.cons_prefix_cons.mp initial
        exact accepted.1
      | cons _ done =>
        obtain ⟨rfl, behind⟩ := List.cons_prefix_cons.mp initial
        exact ih accepted.2 done e behind
  · -- The first command stands behind nothing.
    intro met
    induction events generalizing t with
    | nil => trivial
    | cons first events ih =>
      refine ⟨met [] first (by simp), ih fun done e initial => ?_⟩
      exact met (first :: done) e (List.cons_prefix_cons.mpr ⟨rfl, initial⟩)

/-- The observer who also writes down what was asked and answered, the latest first. -/
def recorded : Contract I (τ × List (Event I)) where
  demand r c := k.demand r.1 c
  step r c answer := (k.step r.1 c answer, ⟨c, answer⟩ :: r.2)

@[simp] theorem recorded_step (r : τ × List (Event I)) (c : I.Command) (answer : I.Answer c) :
    k.recorded.step r c answer = (k.step r.1 c answer, ⟨c, answer⟩ :: r.2) := rfl

/-- Writing everything down changes nothing else. -/
theorem recorded_after (r : τ × List (Event I)) (events : List (Event I)) :
    k.recorded.after r events = (k.after r.1 events, events.reverse ++ r.2) := by
  -- Each command is put in front of those before it.
  induction events generalizing r with
  | nil => rfl
  | cons e events ih => simp [ih]

/-- Writing everything down does not change what may be asked. -/
theorem recorded_accepts {r : τ × List (Event I)} {events : List (Event I)} :
    k.recorded.Accepts r events ↔ k.Accepts r.1 events := by
  -- What is written down is asked about nowhere.
  induction events generalizing r with
  | nil => exact Iff.rfl
  | cons e events ih => exact and_congr_right fun _ => ih

end Contract

namespace Program

variable {I : Interface} {α β τ : Type}

/-- What is left of a program after some of its commands and their answers. -/
inductive Leaves : Program I α → List (Event I) → Program I α → Prop
  | none (p : Program I α) : Leaves p [] p
  | call (c : I.Command) (next : I.Answer c → Program I α) (answer : I.Answer c)
      {events : List (Event I)} {rest : Program I α} (later : Leaves (next answer) events rest) :
      Leaves (.call c next) (⟨c, answer⟩ :: events) rest

/--
A program keeps to a contract, whatever it is answered.

The value it ends with, if it ends, and what the observer has come to then have a property.
-/
def Meets (k : Contract I τ) (Q : α → τ → Prop) : Program I α → τ → Prop
  | .done value, t => Q value t
  | .stuck, _ => True
  | .call c next, t => k.demand t c ∧ ∀ answer, Meets k Q (next answer) (k.step t c answer)

section
variable {k : Contract I τ} {P Q : α → τ → Prop} {t : τ}

@[simp] theorem meets_pure (value : α) : Meets k Q (pure value) t ↔ Q value t := Iff.rfl

/-- One command in front of a program is one more thing to ask for. -/
theorem meets_command_bind {c : I.Command} {f : I.Answer c → Program I α} :
    Meets k Q (command c >>= f) t ↔
      k.demand t c ∧ ∀ answer, Meets k Q (f answer) (k.step t c answer) := Iff.rfl

/-- The second of two programs keeps to the contract from where the first one ends. -/
theorem meets_bind {p : Program I α} {f : α → Program I β} {Q : β → τ → Prop} :
    Meets k Q (p >>= f) t ↔ Meets k (fun value t => Meets k Q (f value) t) p t := by
  -- The first program is followed answer by answer.
  induction p generalizing t with
  | done value => rfl
  | stuck => rfl
  | call c next ih => exact and_congr_right fun _ => forall_congr' fun _ => ih _

/-- A weaker property is met too. -/
theorem Meets.mono (weaker : ∀ value t, P value t → Q value t) {p : Program I α}
    (meets : Meets k P p t) : Meets k Q p t := by
  induction p generalizing t with
  | done value => exact weaker value t meets
  | stuck => trivial
  | call c next ih => exact ⟨meets.1, fun answer => ih answer (meets.2 answer)⟩

/-- Two programs in a row meet what the second one does from wherever the first one ends. -/
theorem Meets.bind {p : Program I α} {f : α → Program I β} {Q : β → τ → Prop}
    (first : Meets k P p t) (second : ∀ value t, P value t → Meets k Q (f value) t) :
    Meets k Q (p >>= f) t :=
  meets_bind.mpr (first.mono second)

/-- A program meets the same when everything is written down, and what was written down stays. -/
theorem Meets.recorded {p : Program I α} (meets : Meets k Q p t) (past : List (Event I)) :
    Meets k.recorded (fun value r => Q value r.1 ∧ past <:+ r.2) p (t, past) := by
  -- Each command is put in front of those before it.
  induction p generalizing t past with
  | done value => exact ⟨meets, List.suffix_rfl⟩
  | stuck => trivial
  | call c next ih =>
    refine ⟨meets.1, fun answer => ?_⟩
    have later := ih answer (meets.2 answer) (⟨c, answer⟩ :: past)
    exact later.mono fun value r kept => ⟨kept.1, (List.suffix_cons _ past).trans kept.2⟩

/-- What is left of a program that keeps to a contract keeps to it from there on. -/
theorem Meets.leaves {p rest : Program I α} {events : List (Event I)} (meets : Meets k Q p t)
    (leaves : Leaves p events rest) : k.Accepts t events ∧ Meets k Q rest (k.after t events) := by
  -- Every answer is allowed for, and so is the one that was given.
  induction leaves generalizing t with
  | none p => exact ⟨trivial, meets⟩
  | call c next answer _ ih =>
    obtain ⟨accepted, kept⟩ := ih (meets.2 answer)
    exact ⟨⟨meets.1, accepted⟩, kept⟩

end

/-- A program gets stuck no sooner than it has given some number of commands of a kind. -/
inductive Lasts (kind : I.Command → Bool) : Program I α → Nat → Prop
  | done (value : α) (passes : Nat) : Lasts kind (.done value) passes
  | stuck : Lasts kind .stuck 0
  | call (c : I.Command) (next : I.Answer c → Program I α) (passes : Nat)
      (rest : ∀ answer, Lasts kind (next answer) (if kind c then passes - 1 else passes)) :
      Lasts kind (.call c next) passes

section
variable {kind : I.Command → Bool} {p : Program I α} {passes : Nat}

/-- A program that lasts for some commands lasts for fewer. -/
theorem Lasts.mono (lasts : Lasts kind p passes) {fewer : Nat} (le : fewer ≤ passes) :
    Lasts kind p fewer := by
  induction lasts generalizing fewer with
  | done value passes => exact .done value fewer
  | stuck =>
    obtain rfl := Nat.le_zero.mp le
    exact .stuck
  | call c next passes _ ih =>
    refine .call c next fewer fun answer => ih answer ?_
    split_ifs <;> omega

/-- Two programs in a row last as long as each of them. -/
theorem Lasts.bind {f : α → Program I β} (first : Lasts kind p passes)
    (second : ∀ value, Lasts kind (f value) passes) : Lasts kind (p >>= f) passes := by
  induction first with
  | done value passes => exact second value
  | stuck => exact .stuck
  | call c next passes _ ih =>
    -- The second program may start when some of the commands were given already.
    refine .call c _ passes fun answer => ih answer fun value => (second value).mono ?_
    split_ifs <;> omega

/-- A command in front of a program makes it last no shorter. -/
theorem Lasts.behind {c : I.Command} {f : I.Answer c → Program I α}
    (rest : ∀ answer, Lasts kind (f answer) passes) : Lasts kind (command c >>= f) passes := by
  refine .call c f passes fun answer => (rest answer).mono ?_
  split_ifs <;> omega

/-- A command of the kind in front of a program makes it last for one more. -/
theorem Lasts.pass {c : I.Command} {f : I.Answer c → Program I α} (given : kind c = true)
    (rest : ∀ answer, Lasts kind (f answer) passes) :
    Lasts kind (command c >>= f) (passes + 1) := by
  refine .call c f (passes + 1) fun answer => ?_
  rw [if_pos given]
  exact rest answer

/-- A run that has got stuck has given that many commands of the kind. -/
theorem Lasts.leaves {events : List (Event I)} (lasts : Lasts kind p passes)
    (leaves : Leaves p events .stuck) : passes ≤ events.countP fun e => kind e.1 := by
  -- Each command of the kind takes one off what is left, and adds one to the count.
  induction lasts generalizing events with
  | done value passes => cases leaves
  | stuck => exact Nat.zero_le _
  | call c next passes _ ih =>
    cases leaves with
    | call _ _ answer later =>
      have given := ih answer later
      rw [List.countP_cons]
      split_ifs at given ⊢ <;> omega

end

end Program

end Device
