import RfidEncryption.Reactive.Machine
import RfidEncryption.Reactive.Past

/-! A door latch released by two factors that are presented one at a time, in any order. -/

namespace Latch

open Reactive

variable {U : Type*}

/-- What is presented at the door, where `U` names the users. -/
inductive Event (U : Type*) where
  /-- The card of a user is recognised. -/
  | card (user : U)
  /-- A user logs in. -/
  | login (user : U)
  /-- A login fails. -/
  | failure
  /-- The door asks whether to open. -/
  | poll
  | other
  deriving DecidableEq

/-- What the door is told. -/
inductive Answer where
  | granted
  | limit
  | refused
  | silent
  deriving DecidableEq

/-- Two flags for the two factors, which do not say whose factor they stand for, and a counter. -/
structure State where
  checker : Bool
  passing : Bool
  attempts : Nat

/-- The latch before anything is presented. -/
def State.closed : State := ⟨false, false, 0⟩

/-- One event at the latch. -/
def step (s : State) : Event U → State × Answer
  -- A factor only sets its flag, whatever the other one is.
  | .card _ => ({ s with checker := true }, .silent)
  | .login _ => ({ s with passing := true }, .silent)
  | .failure => ({ s with attempts := s.attempts + 1 }, .silent)
  | .poll =>
    -- Whoever polls first with both flags set is let in and uses both up.
    if s.passing && s.checker then (.closed, .granted)
    -- Being told of the limit starts the counter over.
    else if 2 ≤ s.attempts then ({ s with attempts := 0 }, .limit)
    else (s, .refused)
  | .other => (s, .silent)

/-- The latch as a machine. -/
def latch (U : Type*) : Machine State (Event U) Answer := ⟨step⟩

/-- The kinds of events, whoever they are about. -/
inductive Kind where
  | card
  | login
  | failure
  | poll
  | other
  deriving DecidableEq

/-- What kind of event it is. -/
def Event.kind : Event U → Kind
  | .card _ => .card
  | .login _ => .login
  | .failure => .failure
  | .poll => .poll
  | .other => .other

section
variable (u : U)

@[simp] theorem kind_card : (Event.card u).kind = .card := rfl

@[simp] theorem kind_login : (Event.login u).kind = .login := rfl

@[simp] theorem kind_failure : (Event.failure : Event U).kind = .failure := rfl

@[simp] theorem kind_poll : (Event.poll : Event U).kind = .poll := rfl

@[simp] theorem kind_other : (Event.other : Event U).kind = .other := rfl

end

section
variable (s : State) (u : U)

@[simp] theorem next_card : (latch U).next s (.card u) = { s with checker := true } := rfl

@[simp] theorem next_login : (latch U).next s (.login u) = { s with passing := true } := rfl

@[simp] theorem next_failure :
    (latch U).next s .failure = { s with attempts := s.attempts + 1 } := rfl

@[simp] theorem next_other : (latch U).next s .other = s := rfl

@[simp] theorem answer_card : (latch U).answer s (.card u) = .silent := rfl

@[simp] theorem answer_login : (latch U).answer s (.login u) = .silent := rfl

@[simp] theorem answer_failure : (latch U).answer s .failure = .silent := rfl

@[simp] theorem answer_other : (latch U).answer s .other = .silent := rfl

end

/-- The three ways a poll can go. -/
theorem poll_cases (s : State) :
    (s.passing = true ∧ s.checker = true ∧ (latch U).next s .poll = .closed ∧
      (latch U).answer s .poll = .granted) ∨
    (¬ (s.passing = true ∧ s.checker = true) ∧ 2 ≤ s.attempts ∧
      (latch U).next s .poll = { s with attempts := 0 } ∧ (latch U).answer s .poll = .limit) ∨
    (¬ (s.passing = true ∧ s.checker = true) ∧ s.attempts < 2 ∧
      (latch U).next s .poll = s ∧ (latch U).answer s .poll = .refused) := by
  -- The grant is tested first, and the limit only where there is no grant.
  unfold Machine.next Machine.answer latch step
  by_cases both : s.passing = true ∧ s.checker = true
  · -- Both factors are there, so nobody asks about the counter.
    exact .inl ⟨both.1, both.2, by simp [both], by simp [both]⟩
  · by_cases many : 2 ≤ s.attempts
    · exact .inr (.inl ⟨both, many, by simp [both, many], by simp [both, many]⟩)
    · exact .inr (.inr ⟨both, by omega, by simp [both, many], by simp [both, many]⟩)

/-- A poll without both factors is told of the limit exactly when two logins were counted. -/
theorem poll_limit {s : State} (waiting : ¬ (s.passing = true ∧ s.checker = true)) :
    (latch U).answer s .poll = .limit ↔ 2 ≤ s.attempts := by
  -- Of the three ways the grant is excluded.
  rcases poll_cases (U := U) s with ⟨login, card, -⟩ | ⟨-, many, -, answer⟩ |
    ⟨-, few, -, answer⟩
  · exact absurd ⟨login, card⟩ waiting
  · simp [answer, many]
  · simp [answer, Nat.not_le.mpr few]

/-- Only a poll is granted, and only with both factors. -/
theorem answer_granted {s : State} {event : Event U} :
    (latch U).answer s event = .granted ↔
      event = .poll ∧ s.passing = true ∧ s.checker = true := by
  cases event with
  | poll =>
    -- Each of the three answers is told by the flags.
    rcases poll_cases (U := U) s with ⟨passing, checker, -, answer⟩ | ⟨both, -, -, answer⟩ |
      ⟨both, -, -, answer⟩
    · simp [answer, passing, checker]
    · simp [answer, both]
    · simp [answer, both]
  | _ => simp

/-- One logged event at the latch. -/
abbrev Step (U : Type*) := Entry State (Event U) Answer

/-- A poll was granted. -/
def Granted (e : Step U) : Prop := e.answer = .granted

/-- A poll was granted or told that the limit is reached. -/
def Settled (e : Step U) : Prop := e.answer = .granted ∨ e.answer = .limit

/-- The event of a logged step is of a kind. -/
def Is (kind : Kind) (e : Step U) : Prop := e.input.kind = kind

instance : DecidablePred (Granted (U := U)) :=
  fun e => inferInstanceAs (Decidable (e.answer = .granted))

instance : DecidablePred (Settled (U := U)) :=
  fun e => inferInstanceAs (Decidable (e.answer = .granted ∨ e.answer = .limit))

instance (kind : Kind) : DecidablePred (Is (U := U) kind) :=
  fun e => inferInstanceAs (Decidable (e.input.kind = kind))

@[simp] theorem is_iff {kind : Kind} {e : Step U} : Is kind e ↔ e.input.kind = kind := Iff.rfl

@[simp] theorem granted_iff {e : Step U} : Granted e ↔ e.answer = .granted := Iff.rfl

@[simp] theorem settled_iff {e : Step U} :
    Settled e ↔ e.answer = .granted ∨ e.answer = .limit := Iff.rfl

/-- What the state of the latch says about the events that led to it. -/
structure Tells (r : Recorded State (Event U) Answer) : Prop where
  checker : r.now.checker = true ↔ ∃ e ∈ sinceLast Granted r.log, Is .card e
  passing : r.now.passing = true ↔ ∃ e ∈ sinceLast Granted r.log, Is .login e
  attempts : r.now.attempts =
    howMany (Is .failure) (sinceLast Settled r.log)

/-- A closed latch with an empty log tells the truth. -/
theorem tells_closed : Tells (⟨.closed, []⟩ : Recorded State (Event U) Answer) where
  checker := by simp [State.closed]
  passing := by simp [State.closed]
  attempts := by simp [State.closed]

/-- Every event leaves the state saying exactly what happened. -/
theorem Tells.next {r : Recorded State (Event U) Answer} (tells : Tells r) (event : Event U) :
    Tells ((latch U).recorded.next r event) := by
  obtain ⟨checker, passing, attempts⟩ := tells
  cases event with
  | poll =>
    -- A grant starts the two flags over, and a grant or a limit starts the counter over.
    rcases poll_cases (U := U) r.now with ⟨-, -, next, answer⟩ | ⟨-, -, next, answer⟩ |
      ⟨-, -, next, answer⟩
    · -- A grant: nothing is later than it.
      constructor <;> simp [Machine.entry, next, answer, State.closed]
    · -- A limit: only the counter starts over.
      constructor <;> simp [Machine.entry, next, answer, checker, passing]
    · -- A refusal changes nothing.
      constructor <;> simp [Machine.entry, next, answer, checker, passing, attempts]
  | _ =>
    -- Anything else is not answered, so it only adds itself to what is remembered.
    constructor <;> simp [Machine.entry, checker, passing, attempts]

/-- After any run from the closed latch the state says exactly what happened. -/
theorem tells_after (run : List (Event U)) :
    Tells ((latch U).recorded.after ⟨.closed, []⟩ run) :=
  (latch U).recorded.after_always (fun _ event tells => tells.next event) tells_closed run

/-- A poll is granted exactly when both factors were presented since the last grant. -/
theorem Tells.granted_iff {r : Recorded State (Event U) Answer} (tells : Tells r) :
    (latch U).answer r.now .poll = .granted ↔
      (∃ e ∈ sinceLast Granted r.log, Is .card e) ∧
        ∃ e ∈ sinceLast Granted r.log, Is .login e := by
  -- Each flag stands for one of the two searches.
  rw [answer_granted, tells.checker, tells.passing]
  simp [and_comm]

/-- A poll without a grant is told of the limit exactly when two logins have failed. -/
theorem Tells.limit_iff {r : Recorded State (Event U) Answer} (tells : Tells r) :
    (latch U).answer r.now .poll = .limit ↔
      (latch U).answer r.now .poll ≠ .granted ∧
        2 ≤ howMany (Is .failure) (sinceLast Settled r.log) := by
  -- The counter is the number found, and the three ways of a poll test it.
  rw [← tells.attempts]
  rcases poll_cases (U := U) r.now with ⟨-, -, -, answer⟩ | ⟨-, many, -, answer⟩ |
    ⟨-, few, -, answer⟩
  · simp [answer]
  · simp [answer, many]
  · simp [answer, Nat.not_le.mpr few]

/-- Every poll is answered. -/
theorem poll_answered (s : State) : (latch U).answer s .poll ≠ .silent := by
  rcases poll_cases (U := U) s with ⟨-, -, -, answer⟩ | ⟨-, -, -, answer⟩ | ⟨-, -, -, answer⟩ <;>
    simp [answer]

/-- Grants never outnumber either factor, and a factor not yet used up counts for one more. -/
structure Covered (r : Recorded State (Event U) Answer) : Prop where
  cards : howMany Granted r.log + r.now.checker.toNat ≤
    howMany (Is .card) r.log
  logins : howMany Granted r.log + r.now.passing.toNat ≤
    howMany (Is .login) r.log

/-- Every event keeps the grants covered by the factors presented. -/
theorem Covered.next {r : Recorded State (Event U) Answer} (covered : Covered r)
    (event : Event U) : Covered ((latch U).recorded.next r event) := by
  obtain ⟨cards, logins⟩ := covered
  -- A flag counts for at most one.
  have small := Bool.toNat_le r.now.checker
  have little := Bool.toNat_le r.now.passing
  cases event with
  | poll =>
    -- A grant uses up one card and one login, both of which were still counted.
    rcases poll_cases (U := U) r.now with ⟨passing, checker, next, answer⟩ | ⟨-, -, next, answer⟩ |
      ⟨-, -, next, answer⟩
    · -- The flags fall as the grant is counted.
      rw [checker] at cards
      rw [passing] at logins
      constructor <;> simp_all [Machine.entry, State.closed]
    · constructor <;> simp [Machine.entry, next, answer, cards, logins]
    · constructor <;> simp [Machine.entry, next, answer, cards, logins]
  | _ =>
    -- A factor adds one to its count and at most one to its flag.
    constructor <;> simp [Machine.entry] <;> omega

/-- In every run grants are covered by the cards recognised and by the logins made. -/
theorem covered_after (run : List (Event U)) :
    Covered ((latch U).recorded.after ⟨.closed, []⟩ run) :=
  (latch U).recorded.after_always (fun _ event covered => covered.next event)
    ⟨by simp [State.closed], by simp [State.closed]⟩ run

end Latch
