import Mathlib.Data.Option.Defs

/-! Programs that command a device, runs of them, and devices built from others. -/

namespace Device

/-- The commands a device takes, and what each of them is answered with. -/
structure Interface where
  Command : Type
  Answer : Command → Type

/--
A program that commands a device.

A loop that has used up the passes it was given is stuck.
-/
inductive Program (I : Interface) (α : Type) where
  | done (value : α)
  | stuck
  | call (command : I.Command) (next : I.Answer command → Program I α)

/-- A device: the answer to a command, and the state it leads to. -/
abbrev Handler (I : Interface) (σ : Type) := (command : I.Command) → σ → I.Answer command × σ

namespace Program

variable {I J : Interface} {α β σ τ : Type}

/-- One command, whose answer is the value. -/
def command (c : I.Command) : Program I (I.Answer c) := .call c .done

/-- One program after the other. -/
def bind : Program I α → (α → Program I β) → Program I β
  | .done value, f => f value
  | .stuck, _ => .stuck
  | .call c next, f => .call c fun answer => bind (next answer) f

instance : Monad (Program I) where
  pure := .done
  bind := bind

/-- Programs in a row can be grouped in any way. -/
instance : LawfulMonad (Program I) := LawfulMonad.mk' (Program I)
  (fun p => by
    induction p with
    | done value => rfl
    | stuck => rfl
    | call c next ih => exact congrArg (call c) (funext ih))
  (fun _ _ => rfl)
  (fun p f g => by
    induction p with
    | done value => rfl
    | stuck => rfl
    | call c next ih => exact congrArg (call c) (funext ih))

/-- The value a program ends with, and the state it leaves its device in. -/
def run (d : Handler I σ) : Program I α → σ → Option (α × σ)
  | .done value, s => some (value, s)
  | .stuck, _ => none
  | .call c next, s => run d (next (d c s).1) (d c s).2

/-- A program whose every command is carried out by a program for another device. -/
def interpret (h : (c : I.Command) → Program J (I.Answer c)) : Program I α → Program J α
  | .done value => .done value
  | .stuck => .stuck
  | .call c next => bind (h c) fun answer => interpret h (next answer)

/-- Every value a program can end with, whatever it is answered, has a property. -/
def Ensures (Q : α → Prop) : Program I α → Prop
  | .done value => Q value
  | .stuck => True
  | .call _ next => ∀ answer, Ensures Q (next answer)

section
variable {P Q : α → Prop}

@[simp] theorem ensures_pure (value : α) : Ensures Q (pure value : Program I α) ↔ Q value := Iff.rfl

@[simp] theorem ensures_stuck : Ensures Q (stuck : Program I α) := trivial

@[simp] theorem ensures_command (c : I.Command) (Q : I.Answer c → Prop) :
    Ensures Q (command c) ↔ ∀ answer, Q answer := Iff.rfl

/-- The second of two programs goes on from what the first one ends with. -/
theorem ensures_bind (p : Program I α) (f : α → Program I β) (Q : β → Prop) :
    Ensures Q (p >>= f) ↔ Ensures (fun value => Ensures Q (f value)) p := by
  induction p with
  | done value => rfl
  | stuck => rfl
  | call c next ih => exact forall_congr' ih

/-- A weaker property is ensured too. -/
theorem Ensures.mono (weaker : ∀ value, P value → Q value) {p : Program I α}
    (ensured : Ensures P p) : Ensures Q p := by
  induction p with
  | done value => exact weaker value ensured
  | stuck => trivial
  | call c next ih => exact fun answer => ih answer (ensured answer)

/-- Nothing is ensured of any program. -/
theorem ensures_true (p : Program I α) : Ensures (fun _ => True) p := by
  induction p with
  | done value => trivial
  | stuck => trivial
  | call c next ih => exact ih

/-- What is ensured of a program followed by another one. -/
theorem Ensures.bind {p : Program I α} {f : α → Program I β} {Q : β → Prop} (first : Ensures P p)
    (second : ∀ value, P value → Ensures Q (f value)) : Ensures Q (p >>= f) :=
  (ensures_bind p f Q).mpr (first.mono second)

/-- What is ensured holds of what a run ends with. -/
theorem Ensures.run {p : Program I α} (ensured : Ensures Q p) {d : Handler I σ} {s : σ}
    {ended : α × σ} (ends : p.run d s = some ended) : Q ended.1 := by
  induction p generalizing s with
  | done value =>
    cases ends
    exact ensured
  | stuck => cases ends
  | call c next ih => exact ih _ (ensured (d c s).1) ends

end

section
variable (h : (c : I.Command) → Program J (I.Answer c))

@[simp] theorem interpret_pure (value : α) :
    (pure value : Program I α).interpret h = pure value := rfl

/-- One command is carried out by its program. -/
@[simp] theorem interpret_command (c : I.Command) : (command c).interpret h = h c :=
  bind_pure (h c)

/-- Two programs in a row are carried out in a row. -/
@[simp] theorem interpret_bind (p : Program I α) (f : α → Program I β) :
    (p >>= f).interpret h = p.interpret h >>= fun value => (f value).interpret h := by
  induction p with
  | done value => rfl
  | stuck => rfl
  | call c next ih =>
    have rest : (fun answer => interpret h (next answer >>= f)) =
        fun answer => interpret h (next answer) >>= fun value => interpret h (f value) := funext ih
    have carried : interpret h (call c next >>= f) =
        h c >>= fun answer => interpret h (next answer >>= f) := rfl
    rw [carried, rest, ← bind_assoc]
    rfl

end

section
variable (d : Handler I σ) (s : σ)

@[simp] theorem run_pure (value : α) : (pure value : Program I α).run d s = some (value, s) := rfl

@[simp] theorem run_stuck : (stuck : Program I α).run d s = none := rfl

@[simp] theorem run_command (c : I.Command) : (command c).run d s = some (d c s) := rfl

/-- The second of two programs runs where the first one ends. -/
@[simp] theorem run_bind (p : Program I α) (f : α → Program I β) :
    (p >>= f).run d s = (p.run d s).bind fun ended => (f ended.1).run d ended.2 := by
  -- The first program is followed command by command.
  induction p generalizing s with
  | done value => rfl
  | stuck => rfl
  | call c next ih => exact ih (d c s).1 (d c s).2

/-- Two programs end when the first one does, and the second one where the first one ends. -/
theorem run_bind_eq_some {p : Program I α} {f : α → Program I β} {ended : β × σ} :
    (p >>= f).run d s = some ended ↔
      ∃ value s', p.run d s = some (value, s') ∧ (f value).run d s' = some ended := by
  simp [Option.bind_eq_some_iff]

end

section
variable {d : Handler I σ} {e : Handler J τ} {h : (c : I.Command) → Program J (I.Answer c)}
  {R : σ → τ → Prop}

/--
A program gives the same on a device and on one that carries out its commands.

It is enough that a relation between the states is kept by every command.
-/
theorem run_interpret
    (carries : ∀ c s t, R s t → ∃ t', (h c).run e t = some ((d c s).1, t') ∧ R (d c s).2 t')
    (p : Program I α) {s : σ} {t : τ} (related : R s t) :
    Option.Rel (fun left right => left.1 = right.1 ∧ R left.2 right.2)
      (p.run d s) ((p.interpret h).run e t) := by
  induction p generalizing s t with
  | done value => exact .some ⟨rfl, related⟩
  | stuck => exact .none
  | call c next ih =>
    -- The command is answered alike, and the rest runs from related states.
    obtain ⟨t', carried, kept⟩ := carries c s t related
    have first : (interpret h (.call c next)).run e t =
        ((h c).run e t).bind fun ended => ((next ended.1).interpret h).run e ended.2 :=
      run_bind e t (h c) fun answer => (next answer).interpret h
    rw [first, carried]
    exact ih _ kept

/-- What is related to a run that ends is one that ends too. -/
theorem exists_of_rel_some {r : α → β → Prop} {a : α} {right : Option β}
    (alike : Option.Rel r (some a) right) : ∃ b, right = some b ∧ r a b := by
  cases alike with
  | some same => exact ⟨_, rfl, same⟩

end

/-- A program that is given more and more passes ends the same way from some number of them on. -/
def Settles (d : Handler I σ) (p : Nat → Program I α) (s : σ) (ended : α × σ) : Prop :=
  ∃ enough, ∀ passes, enough ≤ passes → (p passes).run d s = some ended

section
variable {d : Handler I σ} {s : σ}

/-- A program that needs no passes ends with any number of them. -/
theorem Settles.of_run {p : Program I α} {ended : α × σ} (ends : p.run d s = some ended) :
    Settles d (fun _ => p) s ended :=
  ⟨0, fun _ _ => ends⟩

/-- Two programs in a row settle when each of them does. -/
theorem Settles.bind {p : Nat → Program I α} {f : Nat → α → Program I β} {middle : α × σ}
    {ended : β × σ} (first : Settles d p s middle)
    (second : Settles d (fun passes => f passes middle.1) middle.2 ended) :
    Settles d (fun passes => p passes >>= f passes) s ended := by
  obtain ⟨enough, ends⟩ := first
  obtain ⟨enough', ends'⟩ := second
  refine ⟨max enough enough', fun passes large => ?_⟩
  rw [run_bind, ends passes (by omega), Option.bind_some, ends' passes (by omega)]

end

end Program

end Device
