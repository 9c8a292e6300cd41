import RfidEncryption.Server.Verdict

/-! What the log of a run of the server says about cards, logins and the door. -/

namespace Rfid

open Reactive

/-- One request of a run, with the server before it and the reply to it. -/
abbrev ServerStep := Entry Server Call Reply

section
variable (crypto : Crypto) (uid : Bytes) (e : ServerStep)

/-- A `UID_KEY` request for this card was accepted. -/
def Accepted : Prop := verdict crypto e.before e.input = .card uid

/-- A `Password` request for this card's user passed both checks. -/
def Passed : Prop := verdict crypto e.before e.input = .login uid

/-- A `Password` request was rejected by either check. -/
def Rejected : Prop := verdict crypto e.before e.input = .failure

/-- A call for the door was answered 200. -/
def Opened : Prop := e.input.IsOpen ∧ e.answer.status = .ok

/-- A call for the door was answered 400. -/
def Limited : Prop := e.input.IsOpen ∧ e.answer.status = .badRequest

end

instance (crypto : Crypto) (uid : Bytes) : DecidablePred (Accepted crypto uid) :=
  fun e => inferInstanceAs (Decidable (verdict crypto e.before e.input = .card uid))

instance (crypto : Crypto) (uid : Bytes) : DecidablePred (Passed crypto uid) :=
  fun e => inferInstanceAs (Decidable (verdict crypto e.before e.input = .login uid))

instance (crypto : Crypto) : DecidablePred (Rejected crypto) :=
  fun e => inferInstanceAs (Decidable (verdict crypto e.before e.input = .failure))

instance : DecidablePred Opened :=
  fun e => inferInstanceAs (Decidable (e.input.IsOpen ∧ e.answer.status = .ok))

instance : DecidablePred Limited :=
  fun e => inferInstanceAs (Decidable (e.input.IsOpen ∧ e.answer.status = .badRequest))

section
variable (crypto : Crypto) (e : ServerStep)

/-- Some card was accepted exactly when the verdict is of that kind. -/
theorem accepted_kind :
    (verdict crypto e.before e.input).kind = .card ↔ ∃ uid, Accepted crypto uid e := by
  -- A verdict of this kind names some card.
  unfold Accepted
  cases verdict crypto e.before e.input <;> simp

/-- Some user logged in exactly when the verdict is of that kind. -/
theorem passed_kind :
    (verdict crypto e.before e.input).kind = .login ↔ ∃ uid, Passed crypto uid e := by
  -- A verdict of this kind names some user.
  unfold Passed
  cases verdict crypto e.before e.input <;> simp

/-- A login failed exactly when the verdict is of that kind. -/
theorem rejected_kind :
    (verdict crypto e.before e.input).kind = .failure ↔ Rejected crypto e := by
  -- A failure names nobody.
  unfold Rejected
  cases verdict crypto e.before e.input <;> simp

end

instance (crypto : Crypto) : DecidablePred fun e => ∃ uid, Accepted crypto uid e :=
  fun e => decidable_of_iff _ (accepted_kind crypto e)

instance (crypto : Crypto) : DecidablePred fun e => ∃ uid, Passed crypto uid e :=
  fun e => decidable_of_iff _ (passed_kind crypto e)

section
variable (crypto : Crypto) (e : ServerStep)

/-- A granted poll of the latch is a call for the door answered 200. -/
theorem granted_entry : Latch.Granted ((gateSimulation crypto).entry e) ↔ Opened e := by
  -- Of the requests only calls for the door are answered by the latch.
  simp only [Latch.granted_iff, Simulation.entry, gateSimulation, gateReply, Opened]
  split_ifs with asked
  · cases e.answer.status <;> simp [asked]
  · simp [asked]

/-- A settled poll of the latch is a call for the door answered 200 or 400. -/
theorem settled_entry :
    Latch.Settled ((gateSimulation crypto).entry e) ↔ Opened e ∨ Limited e := by
  -- Both answers are told by the status of the reply.
  simp only [Latch.settled_iff, Simulation.entry, gateSimulation, gateReply, Opened, Limited]
  split_ifs with asked
  · cases e.answer.status <;> simp [asked]
  · simp [asked]

theorem card_entry : Latch.Is .card ((gateSimulation crypto).entry e) ↔
    ∃ uid, Accepted crypto uid e := accepted_kind crypto e

theorem login_entry : Latch.Is .login ((gateSimulation crypto).entry e) ↔
    ∃ uid, Passed crypto uid e := passed_kind crypto e

theorem failure_entry : Latch.Is .failure ((gateSimulation crypto).entry e) ↔
    Rejected crypto e := rejected_kind crypto e

end

section
variable (crypto : Crypto) (s : Server) (call : Call)

/-- A call for the door is answered 200 exactly when the latch grants the poll. -/
theorem open_granted (asked : call.IsOpen) :
    ((server crypto).answer s call).status = .ok ↔
      (Latch.latch Bytes).answer s.gate .poll = .granted := by
  -- The status of the reply is what the latch answers.
  have answered := serve_gateReply crypto s call
  simp only [verdict, asked, if_true] at answered
  rw [← answered, gateReply, if_pos asked]
  cases ((server crypto).answer s call).status <;> simp

/-- A call for the door is answered 400 exactly when the latch tells of the limit. -/
theorem open_limit (asked : call.IsOpen) :
    ((server crypto).answer s call).status = .badRequest ↔
      (Latch.latch Bytes).answer s.gate .poll = .limit := by
  -- As for the grant, with the status 400.
  have answered := serve_gateReply crypto s call
  simp only [verdict, asked, if_true] at answered
  rw [← answered, gateReply, if_pos asked]
  cases ((server crypto).answer s call).status <;> simp

/-- A call for the door is answered 200 exactly when both flags are set. -/
theorem open_ok (asked : call.IsOpen) :
    ((server crypto).answer s call).status = .ok ↔ s.passing = true ∧ s.checker = true := by
  -- The latch grants a poll with both flags set.
  rw [open_granted crypto s call asked, Latch.answer_granted]
  simp [Server.gate]

/-- A call for the door is answered 200, 400 or 401. -/
theorem open_status (asked : call.IsOpen) :
    ((server crypto).answer s call).status = .ok ∨
      ((server crypto).answer s call).status = .badRequest ∨
        ((server crypto).answer s call).status = .unauthorized := by
  -- There are three replies, with one status each.
  rw [serve_open crypto s call asked]
  cases (Latch.latch Bytes).answer s.gate .poll with
  | granted => exact .inl rfl
  | limit => exact .inr (.inl rfl)
  | _ => exact .inr (.inr rfl)

end

end Rfid
