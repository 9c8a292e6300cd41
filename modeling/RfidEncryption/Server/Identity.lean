import RfidEncryption.Server.OpenHistory
import RfidEncryption.Gate.Policy

/-! Whether the card and the login that open the door belong to one user. -/

namespace Rfid

open Reactive

/-- The server with the log of the requests it has served. -/
abbrev Session := Recorded Server Call Reply

section
variable (crypto : Crypto)

/-- One user's card was accepted and the same user logged in. -/
def OneUser (log : List ServerStep) : Prop :=
  ∃ uid, (∃ e ∈ log, Accepted crypto uid e) ∧ ∃ e ∈ log, Passed crypto uid e

/--
A request that completes the two factors completes those of one user.

A card accepted while a login is pending is that of a user who has logged in.
A login made while a card is pending is that of a user whose card was accepted.
A user who presented both before makes up for any later mixture.
-/
def CompletesOneUser (r : Session) (call : Call) : Prop :=
  (∀ uid, verdict crypto r.now call = .card uid → r.now.passing = true →
    (∃ e ∈ r.log, Passed crypto uid e) ∨ OneUser crypto r.log) ∧
  (∀ uid, verdict crypto r.now call = .login uid → r.now.checker = true →
    (∃ e ∈ r.log, Accepted crypto uid e) ∨ OneUser crypto r.log)

/-- The latch has seen a user's card exactly when the server has accepted it. -/
theorem card_record (r : Session) (uid : Bytes) :
    (∃ e ∈ ((gateSimulation crypto).record r).log, e.input = .card uid) ↔
      ∃ e ∈ r.log, Accepted crypto uid e := by
  -- The latch's log lists the verdicts.
  simp [Simulation.record, Simulation.entry, Accepted, gateSimulation]

/-- The latch has seen a user's login exactly when the server has let it pass. -/
theorem login_record (r : Session) (uid : Bytes) :
    (∃ e ∈ ((gateSimulation crypto).record r).log, e.input = .login uid) ↔
      ∃ e ∈ r.log, Passed crypto uid e := by
  -- The latch's log lists the verdicts.
  simp [Simulation.record, Simulation.entry, Passed, gateSimulation]

/-- The latch has seen both factors of one user exactly when the server has. -/
theorem oneUser_record (r : Session) :
    Latch.OneUser ((gateSimulation crypto).record r).log ↔ OneUser crypto r.log := by
  -- Card and login are found alike.
  simp only [Latch.OneUser, OneUser, card_record, login_record]

/-- A request completes one user's factors exactly when its verdict does at the latch. -/
theorem completesOneUser_record (r : Session) (call : Call) :
    Latch.CompletesOneUser ((gateSimulation crypto).record r) (verdict crypto r.now call) ↔
      CompletesOneUser crypto r call := by
  -- Each of the two conditions is about one kind of verdict.
  have one := oneUser_record crypto r
  have cards := fun user => card_record crypto r user
  have logins := fun user => login_record crypto r user
  unfold CompletesOneUser
  cases verdict crypto r.now call <;> simp [Latch.CompletesOneUser, one, cards, logins]

/--
The door opens for one user throughout a run exactly when every request allows it.

The two flags do not say whose factors they stand for.
So a run is safe only as long as its requests do not complete the factors of two users.
-/
theorem opens_for_one_user_iff (cards : Cards) (run : List Call) :
    (∀ done, done <+: run → ∀ call : Call, call.IsOpen →
      ((server crypto).answer ((server crypto).after (Server.start cards) done) call).status = .ok →
        OneUser crypto ((server crypto).history (Server.start cards) done)) ↔
      (server crypto).recorded.Along (CompletesOneUser crypto) ⟨Server.start cards, []⟩ run := by
  -- The latch is safe as long as its events allow it.
  have latch := (gateSimulation crypto).recorded.throughout_iff_along
    (I := Latch.OpensForOneUser) (P := Latch.OpensForOneUser) (C := Latch.CompletesOneUser)
    (fun _ held => held) Latch.opensForOneUser_next Latch.opensForOneUser_breaks
    (s := ⟨Server.start cards, []⟩) (fun both => absurd both.1 Bool.false_ne_true) run
  -- The conditions agree at every step, so the runs that meet them are the same.
  have conditions : (fun r call => Latch.CompletesOneUser ((gateSimulation crypto).record r)
      (verdict crypto r.now call)) = CompletesOneUser crypto := by
    funext r call
    exact propext (completesOneUser_record crypto r call)
  refine Iff.trans ?_ (latch.trans (by rw [← conditions]; rfl))
  -- After each prefix, a call for the door is answered 200 when both flags are set.
  refine forall_congr' fun done => imp_congr_right fun _ => ?_
  rw [Machine.recorded_after]
  have one := oneUser_record crypto
    ⟨(server crypto).after (Server.start cards) done,
      (server crypto).history (Server.start cards) done⟩
  constructor
  · -- The flags are set, so a call for the door would be answered 200.
    intro opens both
    exact one.mpr (opens (openCall quietEnv) (openCall_isOpen _)
      ((open_ok crypto _ _ (openCall_isOpen _)).mpr both))
  · -- A call answered 200 found both flags set.
    intro opens call asked ok
    exact one.mp (opens ((open_ok crypto _ call asked).mp ok))

/-- Alice's login opens the door to Bob's card. -/
theorem opens_for_a_stranger :
    ¬ ∀ (cards : Cards) (run done : List Call), done <+: run → ∀ call : Call, call.IsOpen →
      ((server Crypto.standard).answer
        ((server Crypto.standard).after (Server.start cards) done) call).status = .ok →
      OneUser Crypto.standard ((server Crypto.standard).history (Server.start cards) done) := by
  intro safe
  -- Bob's card is accepted first, and then Alice logs in.
  let run := [uidKeyCall quietEnv bob bobKey, loginCall alice]
  obtain ⟨uid, ⟨e, atCard, accepted⟩, d, atLogin, passed⟩ :=
    safe twoCards run run List.prefix_rfl (openCall quietEnv) (openCall_isOpen _)
      (by decide +kernel)
  have card : ∀ e ∈ (server Crypto.standard).history (Server.start twoCards) run,
      ¬ Accepted Crypto.standard alice e := by decide +kernel
  have login : ∀ e ∈ (server Crypto.standard).history (Server.start twoCards) run,
      verdict Crypto.standard e.before e.input = .card bob ∨
        verdict Crypto.standard e.before e.input = .login alice := by decide +kernel
  -- The only login is Alice's, whose card was never accepted.
  have same : uid = alice := by
    rcases login d atLogin with isCard | isLogin
    · simp [Passed, isCard] at passed
    · simpa [Passed, isLogin, eq_comm] using passed
  exact card e atCard (same ▸ accepted)

end

end Rfid
