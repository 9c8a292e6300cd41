import RfidEncryption.Gate.Latch

/-! What a door should insist on, and the events at which the latch stops insisting on it. -/

namespace Latch

open Reactive

variable {U : Type*}

/-- The latch with its log. -/
abbrev Watched (U : Type*) := Recorded State (Event U) Answer

/-! One user for both factors. -/

/-- Some user has presented both factors. -/
def OneUser (log : List (Step U)) : Prop :=
  ∃ user, (∃ e ∈ log, e.input = .card user) ∧ ∃ e ∈ log, e.input = .login user

/-- Factors presented earlier remain presented. -/
theorem OneUser.later {log : List (Step U)} (one : OneUser log) (e : Step U) :
    OneUser (e :: log) := by
  -- The same two entries are still in the log.
  obtain ⟨user, ⟨card, atCard, isCard⟩, login, atLogin, isLogin⟩ := one
  exact ⟨user, ⟨card, by simp [atCard], isCard⟩, login, by simp [atLogin], isLogin⟩

/-- Whoever could open the door now has presented both factors. -/
def OpensForOneUser (r : Watched U) : Prop :=
  r.now.passing = true ∧ r.now.checker = true → OneUser r.log

/--
An event that completes the two factors completes those of one user.

A factor presented while the other one waits must belong to a user whose other factor is known.
A user who had both factors before makes up for any later mixture.
-/
def CompletesOneUser (r : Watched U) : Event U → Prop
  | .card user =>
    r.now.passing = true → (∃ e ∈ r.log, e.input = .login user) ∨ OneUser r.log
  | .login user =>
    r.now.checker = true → (∃ e ∈ r.log, e.input = .card user) ∨ OneUser r.log
  | _ => True

/-- An event that completes one user's factors keeps the door to one user. -/
theorem opensForOneUser_next (r : Watched U) (event : Event U) (holds : OpensForOneUser r)
    (completes : CompletesOneUser r event) :
    OpensForOneUser ((latch U).recorded.next r event) := by
  cases event with
  | card user =>
    -- The card waits for nobody, or for a login that is this user's.
    intro both
    obtain ⟨passing, -⟩ := both
    rcases completes passing with ⟨e, logged, isLogin⟩ | one
    · exact ⟨user, ⟨_, List.mem_cons_self, rfl⟩, e, List.mem_cons_of_mem _ logged, isLogin⟩
    · exact one.later _
  | login user =>
    -- Likewise the login waits for nobody, or for a card that is this user's.
    intro both
    obtain ⟨-, checker⟩ := both
    rcases completes checker with ⟨e, logged, isCard⟩ | one
    · exact ⟨user, ⟨e, List.mem_cons_of_mem _ logged, isCard⟩, _, List.mem_cons_self, rfl⟩
    · exact one.later _
  | poll =>
    intro both
    obtain ⟨passing, checker⟩ := both
    rcases poll_cases (U := U) r.now with ⟨-, -, next, -⟩ | ⟨-, -, next, -⟩ | ⟨-, -, next, -⟩
    · -- A grant leaves no factor behind.
      simp [next, State.closed] at passing
    · simp only [Machine.recorded_next, next] at passing checker
      exact (holds ⟨passing, checker⟩).later _
    · simp only [Machine.recorded_next, next] at passing checker
      exact (holds ⟨passing, checker⟩).later _
  | failure => exact fun both => (holds both).later _
  | other => exact fun both => (holds both).later _

/-- An event that completes the factors of two users opens the door to neither in particular. -/
theorem opensForOneUser_breaks (r : Watched U) (event : Event U) (_ : OpensForOneUser r)
    (mixes : ¬ CompletesOneUser r event) :
    ¬ OpensForOneUser ((latch U).recorded.next r event) := by
  cases event with
  | card user =>
    simp only [CompletesOneUser, Classical.not_imp, not_or] at mixes
    -- A login waits that is not this user's.
    obtain ⟨passing, stranger, none⟩ := mixes
    intro still
    -- Whoever is said to have both factors now had both before, or is the stranger.
    obtain ⟨other, ⟨card, atCard, isCard⟩, login, atLogin, isLogin⟩ := still ⟨passing, rfl⟩
    -- The login is an earlier one, as the event is a card.
    have loggedIn : login ∈ r.log := by
      rcases List.mem_cons.mp atLogin with rfl | behind
      · simp [Machine.entry] at isLogin
      · exact behind
    -- The card is either the one just recognised or an earlier one.
    rcases List.mem_cons.mp atCard with rfl | behind
    · simp only [Machine.entry, Event.card.injEq] at isCard
      exact stranger ⟨login, loggedIn, isCard ▸ isLogin⟩
    · exact none ⟨other, ⟨card, behind, isCard⟩, login, loggedIn, isLogin⟩
  | login user =>
    simp only [CompletesOneUser, Classical.not_imp, not_or] at mixes
    -- The same with the roles of the factors exchanged.
    obtain ⟨checker, stranger, none⟩ := mixes
    intro still
    obtain ⟨other, ⟨card, atCard, isCard⟩, login, atLogin, isLogin⟩ := still ⟨rfl, checker⟩
    have recognised : card ∈ r.log := by
      rcases List.mem_cons.mp atCard with rfl | behind
      · simp [Machine.entry] at isCard
      · exact behind
    rcases List.mem_cons.mp atLogin with rfl | behind
    · simp only [Machine.entry, Event.login.injEq] at isLogin
      exact stranger ⟨card, recognised, isLogin ▸ isCard⟩
    · exact none ⟨other, ⟨card, recognised, isCard⟩, login, behind, isLogin⟩
  | poll => exact absurd trivial mixes
  | failure => exact absurd trivial mixes
  | other => exact absurd trivial mixes

/-! A limit on failed logins. -/

/-- A poll was granted or a card recognised, which gives the visitor a fresh start. -/
def FreshStart (e : Step U) : Prop := Granted e ∨ Is .card e

instance : DecidablePred (FreshStart (U := U)) :=
  fun e => inferInstanceAs (Decidable (Granted e ∨ Is .card e))

@[simp] theorem freshStart_iff {e : Step U} :
    FreshStart e ↔ e.answer = .granted ∨ e.input.kind = .card := Iff.rfl

/-- The logins that failed since the last fresh start. -/
def failures (log : List (Step U)) : Nat :=
  howMany (Is .failure) (sinceLast FreshStart log)

/-- Whoever could open the door now has failed at most once since the last fresh start. -/
def OpensWithinLimit (r : Watched U) : Prop :=
  r.now.passing = true ∧ r.now.checker = true → failures r.log < 2

/--
An event that completes the factors, or fails while they are complete, stays within the limit.
-/
def StaysWithinLimit (r : Watched U) : Event U → Prop
  | .login _ => r.now.checker = true → failures r.log < 2
  | .failure => r.now.passing = true → r.now.checker = true → failures r.log + 1 < 2
  | _ => True

section
variable (r : Watched U)

/-- A card starts the count of failures over. -/
theorem failures_card (user : U) :
    failures ((latch U).recorded.next r (.card user)).log = 0 := by
  simp [failures, Machine.entry]

theorem failures_login (user : U) :
    failures ((latch U).recorded.next r (.login user)).log = failures r.log := by
  simp [failures, Machine.entry]

theorem failures_failure :
    failures ((latch U).recorded.next r .failure).log = failures r.log + 1 := by
  simp [failures, Machine.entry]

theorem failures_other :
    failures ((latch U).recorded.next r .other).log = failures r.log := by
  simp [failures, Machine.entry]

end

/-- An event that stays within the limit keeps the door to those within it. -/
theorem opensWithinLimit_next (r : Watched U) (event : Event U) (holds : OpensWithinLimit r)
    (stays : StaysWithinLimit r event) :
    OpensWithinLimit ((latch U).recorded.next r event) := by
  cases event with
  | card user =>
    intro _
    -- Nothing has failed since the card was recognised.
    rw [failures_card]
    exact Nat.two_pos
  | login user =>
    intro both
    obtain ⟨-, checker⟩ := both
    -- A login counts no failure, and found the count within the limit.
    rw [failures_login]
    exact stays checker
  | failure =>
    intro both
    obtain ⟨passing, checker⟩ := both
    rw [failures_failure]
    exact stays passing checker
  | poll =>
    intro both
    obtain ⟨passing, checker⟩ := both
    rcases poll_cases (U := U) r.now with ⟨-, -, next, -⟩ | ⟨both, -, next, -⟩ |
      ⟨both, -, next, -⟩
    · -- A grant closes the door.
      simp [next, State.closed] at passing
    · -- Any other answer means that the factors were not complete.
      simp only [Machine.recorded_next, next] at passing checker
      exact absurd ⟨passing, checker⟩ both
    · simp only [Machine.recorded_next, next] at passing checker
      exact absurd ⟨passing, checker⟩ both
  | other =>
    intro both
    rw [failures_other]
    exact holds both

/-- An event beyond the limit leaves the door open to someone beyond it. -/
theorem opensWithinLimit_breaks (r : Watched U) (event : Event U) (_ : OpensWithinLimit r)
    (exceeds : ¬ StaysWithinLimit r event) :
    ¬ OpensWithinLimit ((latch U).recorded.next r event) := by
  cases event with
  | login user =>
    simp only [StaysWithinLimit, Classical.not_imp] at exceeds
    -- The login completes the factors of a visitor who failed too often.
    obtain ⟨checker, many⟩ := exceeds
    intro still
    exact many (failures_login r user ▸ still ⟨rfl, checker⟩)
  | failure =>
    simp only [StaysWithinLimit, Classical.not_imp] at exceeds
    -- The failure comes while the door could be opened.
    obtain ⟨passing, checker, many⟩ := exceeds
    intro still
    exact many (failures_failure r ▸ still ⟨passing, checker⟩)
  | card user => exact absurd trivial exceeds
  | poll => exact absurd trivial exceeds
  | other => exact absurd trivial exceeds

/-! Latches that no visitor can tell apart. -/

/-- The flags agree, and so do the counters as far as a poll will read them. -/
structure Alike (s t : State) : Prop where
  checker : s.checker = t.checker
  passing : s.passing = t.passing
  attempts : (s.passing = true ∧ s.checker = true) ∨ min s.attempts 2 = min t.attempts 2

/-- A poll tells latches that are alike the same, and leaves them alike. -/
theorem Alike.poll {s t : State} (alike : Alike s t) :
    (latch U).answer s .poll = (latch U).answer t .poll ∧
      Alike ((latch U).next s .poll) ((latch U).next t .poll) := by
  obtain ⟨checker, passing, attempts⟩ := alike
  rcases poll_cases (U := U) s with ⟨login, card, next, answer⟩ | ⟨both, many, next, answer⟩ |
    ⟨both, few, next, answer⟩
  · -- A grant closes both.
    have same : t.passing = true ∧ t.checker = true := ⟨passing ▸ login, checker ▸ card⟩
    rcases poll_cases (U := U) t with ⟨-, -, next', answer'⟩ | ⟨no, -⟩ | ⟨no, -⟩
    · rw [answer, answer', next, next']
      exact ⟨rfl, rfl, rfl, .inr rfl⟩
    · exact absurd same no
    · exact absurd same no
  · -- A counter of two or more is told of the limit in both, and started over.
    have same := attempts.resolve_left both
    rw [passing, checker] at both
    rcases poll_cases (U := U) t with ⟨login, card, -⟩ | ⟨-, -, next', answer'⟩ | ⟨-, few, -⟩
    · exact absurd ⟨login, card⟩ both
    · rw [answer, answer', next, next']
      exact ⟨rfl, checker, passing, .inr rfl⟩
    · omega
  · have same := attempts.resolve_left both
    rw [passing, checker] at both
    rcases poll_cases (U := U) t with ⟨login, card, -⟩ | ⟨-, many, -⟩ | ⟨-, -, next', answer'⟩
    · exact absurd ⟨login, card⟩ both
    · omega
    · rw [answer, answer', next, next']
      exact ⟨rfl, checker, passing, .inr same⟩

/-- Latches that are alike answer every event alike. -/
theorem Alike.answer {s t : State} (alike : Alike s t) (event : Event U) :
    (latch U).answer s event = (latch U).answer t event := by
  -- Only a poll is answered by what it finds.
  cases event with
  | poll => exact alike.poll.1
  | _ => rfl

/-- Latches that are alike stay alike. -/
theorem Alike.next {s t : State} (alike : Alike s t) (event : Event U) :
    Alike ((latch U).next s event) ((latch U).next t event) := by
  cases event with
  | card user => exact ⟨rfl, alike.passing, alike.attempts.imp (fun both => ⟨both.1, rfl⟩) id⟩
  | login user => exact ⟨alike.checker, rfl, alike.attempts.imp (fun both => ⟨rfl, both.2⟩) id⟩
  -- Counters that agree up to two agree so after one more.
  | failure =>
    refine ⟨alike.checker, alike.passing, alike.attempts.imp id fun same => ?_⟩
    simp only [next_failure]
    omega
  | other => exact alike
  | poll => exact alike.poll.2

/-- Two polls, one of them after a failure, find out what a recognised card finds of the past. -/
theorem told_apart {s t : State} (card : s.checker = true) (card' : t.checker = true)
    (now : (latch U).answer s .poll = (latch U).answer t .poll)
    (later : (latch U).answer ((latch U).next s .failure) .poll =
      (latch U).answer ((latch U).next t .failure) .poll) :
    s.passing = t.passing ∧ (s.passing = false → min s.attempts 2 = min t.attempts 2) := by
  -- The first poll tells whether the login was left over.
  have grants : s.passing = true ↔ t.passing = true := by
    have left := @answer_granted U s .poll
    have right := @answer_granted U t .poll
    rw [now, right] at left
    simpa [card, card'] using left.symm
  refine ⟨Bool.eq_iff_iff.mpr grants, fun waiting => ?_⟩
  have waiting' : t.passing = false := by simpa [waiting] using grants
  -- Without a grant each poll tells whether its counter has reached two.
  have reached := poll_limit (U := U) (s := s) (by simp [waiting])
  rw [now, poll_limit (by simp [waiting'])] at reached
  have exceeded := poll_limit (U := U) (s := (latch U).next s .failure) (by simp [waiting])
  rw [later, poll_limit (by simp [waiting'])] at exceeded
  simp only [next_failure] at exceeded
  omega

end Latch
