import RfidEncryption.Server.Clients
import RfidEncryption.Server.Log

/-! The answer to a call for the door, as a function of everything asked before. -/

namespace Rfid

open Reactive

section
variable (crypto : Crypto) (cards : Cards) (run : List Call)

/-- After any run the globals say exactly what the log of the run says. -/
theorem gate_tells :
    Latch.Tells ((gateSimulation crypto).record
      ((server crypto).recorded.after ⟨Server.start cards, []⟩ run)) := by
  -- The latch follows the run from its closed state.
  rw [Simulation.record_after]
  exact Latch.tells_after _

/-- After any run the answers of 200 are covered by the accepted cards and the logins. -/
theorem gate_covered :
    Latch.Covered ((gateSimulation crypto).record
      ((server crypto).recorded.after ⟨Server.start cards, []⟩ run)) := by
  -- The counts are those of the latch that follows the run.
  rw [Simulation.record_after]
  exact Latch.covered_after _

/-- The first flag is set exactly when a card was accepted since the door last opened. -/
theorem checker_history :
    ((server crypto).after (Server.start cards) run).checker = true ↔
      ∃ e ∈ sinceLast Opened ((server crypto).history (Server.start cards) run),
        ∃ uid, Accepted crypto uid e := by
  -- What the latch says of its own log is said of the server's.
  have told := (gate_tells crypto cards run).checker
  rw [Machine.recorded_after] at told
  simp only [Simulation.record, sinceLast_map _ (granted_entry crypto), List.mem_map,
    exists_exists_and_eq_and, card_entry] at told
  exact told

/-- The second flag is set exactly when a user logged in since the door last opened. -/
theorem passing_history :
    ((server crypto).after (Server.start cards) run).passing = true ↔
      ∃ e ∈ sinceLast Opened ((server crypto).history (Server.start cards) run),
        ∃ uid, Passed crypto uid e := by
  -- As for the cards, with the logins.
  have told := (gate_tells crypto cards run).passing
  rw [Machine.recorded_after] at told
  simp only [Simulation.record, sinceLast_map _ (granted_entry crypto), List.mem_map,
    exists_exists_and_eq_and, login_entry] at told
  exact told

/-- The counter is the number of rejected logins since the door last answered 200 or 400. -/
theorem attemptTime_history :
    ((server crypto).after (Server.start cards) run).attemptTime =
      howMany (Rejected crypto)
        (sinceLast (fun e => Opened e ∨ Limited e)
          ((server crypto).history (Server.start cards) run)) := by
  -- Both a grant and the limit start the counter over.
  have told := (gate_tells crypto cards run).attempts
  rw [Machine.recorded_after] at told
  simp only [Simulation.record, sinceLast_map _ (settled_entry crypto),
    howMany_map _ (failure_entry crypto)] at told
  exact told

/--
The answer to a call for the door is decided by the history of the run alone.

It is 200 when a card was accepted and a user logged in since the last 200.
It is 400 when it is not 200 and two logins were rejected since the last 200 or 400.
It is 401 otherwise, and no run has more answers of 200 than accepted cards or logins.
-/
theorem open_history (call : Call) (asked : call.IsOpen) :
    let log := (server crypto).history (Server.start cards) run
    let status :=
      ((server crypto).answer ((server crypto).after (Server.start cards) run) call).status
    (status = .ok ↔
      (∃ e ∈ sinceLast Opened log, ∃ uid, Accepted crypto uid e) ∧
        ∃ e ∈ sinceLast Opened log, ∃ uid, Passed crypto uid e) ∧
    (status = .badRequest ↔
      status ≠ .ok ∧
        2 ≤ howMany (Rejected crypto) (sinceLast (fun e => Opened e ∨ Limited e) log)) ∧
    (status ≠ .ok → status ≠ .badRequest → status = .unauthorized) ∧
    howMany Opened log ≤ howMany (fun e => ∃ uid, Accepted crypto uid e) log ∧
    howMany Opened log ≤ howMany (fun e => ∃ uid, Passed crypto uid e) log := by
  intro log status
  have limited := (gate_tells crypto cards run).limit_iff
  rw [Machine.recorded_after] at limited
  simp only [Simulation.record, sinceLast_map _ (settled_entry crypto),
    howMany_map _ (failure_entry crypto)] at limited
  have covered := gate_covered crypto cards run
  rw [Machine.recorded_after] at covered
  refine ⟨?_, ?_, ?_, ?_, ?_⟩
  · -- Both flags are read off the log.
    rw [← checker_history, ← passing_history, and_comm]
    exact open_ok crypto _ call asked
  · -- The latch answers with the limit, and its own grant is the answer 200.
    rw [open_limit crypto _ call asked, ne_eq, open_granted crypto _ call asked]
    exact limited
  · intro notOk notLimit
    rcases open_status crypto ((server crypto).after (Server.start cards) run) call asked with
      ok | limit | unauthorized
    · exact absurd ok notOk
    · exact absurd limit notLimit
    · exact unauthorized
  · -- Every answer of 200 used up an accepted card.
    have counted := covered.cards
    simp only [Simulation.record, howMany_map _ (granted_entry crypto),
      howMany_map _ (card_entry crypto)] at counted
    exact (Nat.le_add_right ..).trans counted
  · -- Every answer of 200 used up a login.
    have counted := covered.logins
    simp only [Simulation.record, howMany_map _ (granted_entry crypto),
      howMany_map _ (login_entry crypto)] at counted
    exact (Nat.le_add_right ..).trans counted

end

/-- A card and a login are enough for one answer of 200. -/
theorem open_history_visit :
    ((server Crypto.standard).answer ((server Crypto.standard).after (Server.start twoCards)
      [uidKeyCall quietEnv bob bobKey, loginCall bob]) (openCall quietEnv)).status = .ok :=
  (open_history Crypto.standard twoCards [uidKeyCall quietEnv bob bobKey, loginCall bob]
    (openCall quietEnv) (openCall_isOpen _)).1.mpr (by decide +kernel)

end Rfid
