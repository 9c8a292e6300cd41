import RfidEncryption.Server.Handlers
import RfidEncryption.Gate.Latch

/-! What the handlers decide about a request, and the latch their globals implement. -/

namespace Rfid

open Reactive

/-- The JSON request a call hands to `handleJSON`, if it gets there with one. -/
def Call.json (call : Call) : Option Request :=
  -- Both paths hand their body on, and only for a POST.
  if call.request.path = "/json" ∨ call.request.path = "/password_input" then
    if call.request.method = "POST" then call.request.body else none
  else none

/-- Whether a call asks the server to open the door. -/
def Call.IsOpen (call : Call) : Prop := call.request.path = "/OPEN"

instance : DecidablePred Call.IsOpen :=
  fun call => inferInstanceAs (Decidable (call.request.path = "/OPEN"))

/-- A call for the door carries no JSON request. -/
theorem Call.IsOpen.json {call : Call} (asked : call.IsOpen) : call.json = none := by
  have path : call.request.path = "/OPEN" := asked
  simp [Call.json, path]

section
variable (crypto : Crypto) (env : Env) (s : Server) (w : ResponseWriter) (req : Request)

/-- Whether both checks of a `Password` request succeed. -/
def passwordPasses : Bool :=
  (databaseChecker crypto env s.cards (hexBytes req.uid) (hashOf crypto req.password)
      "password").1 = 1 ∧
    (databaseChecker crypto env s.cards (hexBytes req.uid) req.totp "TOTP").1 = 1

/-- Whether the key of a `UID_KEY` request is that of the card. -/
def uidKeyMatches : Bool :=
  (databaseChecker crypto env (testRegister crypto env s req).cards (hexBytes req.uid)
    (hexBytes req.otAK) "key_this_time").1 = 1

/-- A `Password` request sets `passing` or counts one more attempt. -/
theorem handlePassword_state :
    (handlePassword crypto env s w req).1 =
      if passwordPasses crypto env s req then { s with passing := true }
      else { s with attemptTime := s.attemptTime + 1 } := by
  -- Either check that fails leads to the same new state.
  unfold handlePassword passwordPasses
  simp only [databaseChecker_error, Option.isSome_none, Bool.false_eq_true, if_false, ne_eq,
    decide_eq_true_eq]
  split_ifs <;> simp_all

/-- A `UID_KEY` request registers the first card and sets `checker` when the key matches. -/
theorem handleUidKey_state :
    (handleUidKey crypto env s w req).1 =
      if uidKeyMatches crypto env s req then
        { testRegister crypto env s req with checker := true }
      else testRegister crypto env s req := by
  -- The checker reads the table the registration leaves.
  unfold handleUidKey uidKeyMatches
  simp only [databaseChecker_error, Option.isSome_none, Bool.false_eq_true, if_false, ne_eq,
    decide_eq_true_eq]
  split_ifs <;> simp_all

/-- A `New_Card_Key` request changes nothing but the table, and that only under `checker`. -/
theorem handleNewCardKey_state :
    (handleNewCardKey env s w req).1 =
      { s with
        cards :=
          if s.checker then
            (databaseUpdater env s.cards (hexBytes req.uid) (hexBytes req.newOtAK) req.type).1
          else s.cards } := by
  -- An error is reported to the client, but leaves no other trace.
  unfold handleNewCardKey
  by_cases permitted : s.checker = true
  · simp only [permitted, if_true]
    split <;> rfl
  · rw [if_neg permitted, if_neg permitted]

/-- What a `Password` request writes names the check that failed, if one did. -/
theorem handlePassword_writer :
    (handlePassword crypto env s w req).2 =
      if (databaseChecker crypto env s.cards (hexBytes req.uid) (hashOf crypto req.password)
          "password").1 ≠ 1 then w.error "Invalid password" .badRequest
      else if (databaseChecker crypto env s.cards (hexBytes req.uid) req.totp "TOTP").1 ≠ 1 then
        w.error "Invalid TOTP" .badRequest
      else w := by
  -- A success writes nothing, so its reply is empty.
  unfold handlePassword
  simp only [databaseChecker_error, Option.isSome_none, Bool.false_eq_true, if_false]
  split_ifs <;> rfl

/-- The reply body of a request that succeeded. -/
def writeOK : ResponseWriter :=
  ((w.setContentType "text/plain").writeHeader .ok).write (utf8 "IS_OK:OK")

/-- The reply body of a request that failed with a message. -/
def writeNO (message : String) : ResponseWriter :=
  (((w.error message .badRequest).setContentType "text/plain").writeHeader .ok).write
    (utf8 "IS_OK:NO")

/-- What a `UID_KEY` request writes tells whether the key matches. -/
theorem handleUidKey_writer :
    (handleUidKey crypto env s w req).2 =
      if uidKeyMatches crypto env s req then writeOK w
      else writeNO w "Invalid One time AES key" := by
  -- The checker reports no error, so one of the two texts is written.
  unfold handleUidKey uidKeyMatches
  simp only [databaseChecker_error, Option.isSome_none, Bool.false_eq_true, if_false, ne_eq,
    decide_eq_true_eq]
  split_ifs <;> rfl

/-- What a `New_Card_Key` request writes, which is nothing without `checker`. -/
theorem handleNewCardKey_writer :
    (handleNewCardKey env s w req).2 =
      if s.checker then
        if (databaseUpdater env s.cards (hexBytes req.uid) (hexBytes req.newOtAK)
          req.type).2.isSome then writeNO w "Write key wrong"
        else writeOK w
      else w := by
  -- Each branch writes one of the two texts or nothing.
  unfold handleNewCardKey
  dsimp only
  split_ifs <;> rfl

/-- The state a JSON request leads to, whatever is written in reply. -/
def jsonNext : Server :=
  if req.type = "Password" then
    if passwordPasses crypto env s req then { s with passing := true }
    else { s with attemptTime := s.attemptTime + 1 }
  else if req.type = "UID_KEY" then
    if uidKeyMatches crypto env s req then
      { testRegister crypto env s req with checker := true }
    else testRegister crypto env s req
  else if req.type = "New_Card_Key" then
    { s with
      cards :=
        if s.checker then
          (databaseUpdater env s.cards (hexBytes req.uid) (hexBytes req.newOtAK) req.type).1
        else s.cards }
  else s

/-- The JSON handler leads to that state, whatever was written before. -/
theorem handleJSON_state (body : Option Request) (uid : Bytes) :
    (handleJSON crypto env s w body uid).1 = body.elim s (jsonNext crypto env s) := by
  cases body with
  | none => rfl
  | some req =>
    -- The type decides which handler runs.
    simp only [handleJSON, jsonNext, Option.elim_some]
    split_ifs <;>
      simp_all [handlePassword_state, handleUidKey_state, handleNewCardKey_state]

end

section
variable (crypto : Crypto) (s : Server) (call : Call)

/-- One served request either asks for the door, runs a JSON request, or changes nothing. -/
theorem serve_state :
    (server crypto).next s call =
      if call.IsOpen then (handleOpen s {}).1
      else call.json.elim s (jsonNext crypto call.env s) := by
  -- The two paths that take JSON lead to the same state, and pages and errors to none.
  unfold Machine.next server serve pathHandler Call.json Call.IsOpen
  dsimp only
  split_ifs <;> simp_all [handleJSON_state]

/-- What the handlers decide about a request, in terms of the latch. -/
def verdict : Latch.Event Bytes :=
  if call.IsOpen then .poll
  else match call.json with
    | none => .other
    | some req =>
      if req.type = "Password" then
        if passwordPasses crypto call.env s req then .login (hexBytes req.uid) else .failure
      else if req.type = "UID_KEY" then
        if uidKeyMatches crypto call.env s req then .card (hexBytes req.uid) else .other
      else .other

/-- A card is recognised by the `UID_KEY` request that names it. -/
theorem verdict_card {uid : Bytes} (card : verdict crypto s call = .card uid) :
    ¬ call.IsOpen ∧ ∃ req, call.json = some req ∧ req.type = "UID_KEY" ∧
      hexBytes req.uid = uid ∧ uidKeyMatches crypto call.env s req = true := by
  -- Only one of the branches leads to a card.
  unfold verdict at card
  split_ifs at card with asked
  refine ⟨asked, ?_⟩
  cases carried : call.json with
  | none => simp [carried] at card
  | some req =>
    simp only [carried] at card
    split_ifs at card with password passes uidKey fits
    exact ⟨req, rfl, uidKey, Latch.Event.card.inj card, fits⟩

/-- A JSON request is the body of the call that carries it. -/
theorem Call.json_body {call : Call} {req : Request} (carried : call.json = some req) :
    call.request.body = some req := by
  unfold Call.json at carried
  split_ifs at carried
  exact carried

/-- The three globals of the server, as the state of a latch. -/
def Server.gate : Latch.State := ⟨s.checker, s.passing, s.attemptTime⟩

@[simp] theorem gate_checker : s.gate.checker = s.checker := rfl

@[simp] theorem gate_passing : s.gate.passing = s.passing := rfl

/-- What a reply tells the door. -/
def gateReply (call : Call) (reply : Reply) : Latch.Answer :=
  if call.IsOpen then
    match reply.status with
    | .ok => .granted
    | .badRequest => .limit
    | _ => .refused
  else .silent

/-- Registering a card for testing leaves the latch alone. -/
@[simp] theorem testRegister_gate (env : Env) (req : Request) :
    (testRegister crypto env s req).gate = s.gate := by
  -- The registration writes a row and its own flag.
  unfold testRegister
  split <;> rfl

/-- The globals follow the latch. -/
theorem serve_gate :
    ((server crypto).next s call).gate =
      (Latch.latch Bytes).next s.gate (verdict crypto s call) := by
  rw [serve_state]
  by_cases asked : call.IsOpen
  · -- The door is asked, and the handler tests what the latch tests.
    simp only [asked, if_true, verdict]
    unfold handleOpen Machine.next Latch.latch Latch.step
    by_cases both : s.passing = true ∧ s.checker = true
    · simp [both, Server.gate, Latch.State.closed]
    · by_cases many : 2 ≤ s.attemptTime
      · simp [both, many, Server.gate]
      · simp [both, many, Server.gate]
  · simp only [asked, if_false, verdict]
    cases call.json with
    | none => rfl
    | some req =>
      -- Each branch of the JSON handler is one event at the latch.
      have registered := testRegister_gate crypto s call.env req
      simp only [Server.gate, Latch.State.mk.injEq] at registered
      simp only [Option.elim_some, jsonNext]
      split_ifs <;> simp_all [Server.gate]

/-- The reply to a call for the door, by what the latch answers. -/
def openReply : Latch.Answer → Reply
  | .granted =>
    ResponseWriter.finish ((({} : ResponseWriter).setContentType "text/plain").writeHeader .ok)
  | .limit => ResponseWriter.finish (({} : ResponseWriter).error "BadRequest" .badRequest)
  | _ => ResponseWriter.finish (({} : ResponseWriter).error "Unauthorized" .unauthorized)

/-- A call for the door is answered from the latch alone. -/
theorem serve_open (asked : call.IsOpen) :
    (server crypto).answer s call = openReply ((Latch.latch Bytes).answer s.gate .poll) := by
  -- The handler and the latch test the same things in the same order.
  have path : call.request.path = "/OPEN" := asked
  unfold Machine.answer server serve pathHandler handleOpen Latch.latch Latch.step
  by_cases both : s.passing = true ∧ s.checker = true
  · simp [path, both, Server.gate, openReply]
  · by_cases many : 2 ≤ s.attemptTime
    · simp [path, both, many, Server.gate, openReply]
    · simp [path, both, many, Server.gate, openReply]

/-- The reply to a call for the door is the latch's answer. -/
theorem serve_gateReply :
    gateReply call ((server crypto).answer s call) =
      (Latch.latch Bytes).answer s.gate (verdict crypto s call) := by
  by_cases asked : call.IsOpen
  · -- Each of the three replies is told apart by its status.
    have answered := Latch.poll_answered (U := Bytes) s.gate
    simp only [gateReply, asked, if_true, verdict, serve_open crypto s call asked]
    cases told : (Latch.latch Bytes).answer s.gate .poll with
    | silent => exact absurd told answered
    | _ => rfl
  · -- Nothing but a call for the door is answered by the latch.
    simp only [gateReply, asked, if_false, verdict]
    cases call.json with
    | none => rfl
    | some req => dsimp only; split_ifs <;> rfl

end

/-- The server's globals implement the latch, with the verdicts as its events. -/
def gateSimulation (crypto : Crypto) : Simulation (server crypto) (Latch.latch Bytes) where
  state := Server.gate
  input := verdict crypto
  reply := gateReply
  next := serve_gate crypto
  answer := serve_gateReply crypto

/-- The latch is followed in the state the globals describe. -/
@[simp] theorem gateSimulation_now (crypto : Crypto) (r : Recorded Server Call Reply) :
    ((gateSimulation crypto).record r).now = r.now.gate := rfl

end Rfid
