import RfidEncryption.Reader.CardBlock
import RfidEncryption.Reader.Request
import RfidEncryption.Server.Replies
import RfidEncryption.Server.Store

/-! Whether the reader tells the server of a key that the card may not hold. -/

namespace Rfid

open Reactive

/-- What the driver reports to one `card_write_on_block`, zero being a failure. -/
structure Pn532 where
  /-- `pn532_mifareclassic_AuthenticateBlock` -/
  authenticated : UInt8
  /-- `pn532_mifareclassic_WriteDataBlock` -/
  written : UInt8

/--
Whether the driver has reported a failure.

A failed authentication is one of its reports too, and `counted` tells whether it is meant.
-/
def Pn532.Fails (counted : Bool) (pn532 : Pn532) : Prop :=
  pn532.written = 0 ∨ counted = true ∧ pn532.authenticated = 0

/-- `card_write_on_block`: its result, and the block it hands to the driver. -/
def cardWriteOnBlock4 (pn532 : Pn532) (data : CardKey) : Int × CardBlock :=
  -- The first report is dropped and the second one logged.
  (cardWriteOnBlock (pn532.written ≠ 0), block4 data)

/-- One call `https_request` makes, with what it comes to. -/
inductive SessionEvent where
  | connect (tls : Bool)
  /-- `esp_tls_conn_write`, whose result may be negative. -/
  | write (env : Env) (ret : Bool)
  /-- `esp_tls_conn_read` of some bytes, whatever the server has sent. -/
  | read (buf : Bytes)
  | readFails
  | program (randomBytes : CardKey) (pn532 : Pn532)

/-- One run of `https_request`, with the blocks it wrote and the requests it sent, latest first. -/
structure CardSession where
  reader : Reader
  reports : List (CardBlock × Pn532)
  sent : List Call

/-- The call of `https_request`. -/
def CardSession.start (uid : Uid) (cardKey : CardKey) : CardSession :=
  { reader := Reader.start.call uid cardKey, reports := [], sent := [] }

/-- One call of `https_request`; a call it does not make there changes nothing. -/
def sessionStep (s : CardSession) : SessionEvent → CardSession × Option Call
  | .connect tls =>
    if s.reader.stage = .connect then ({ s with reader := s.reader.connected tls }, none)
    else (s, none)
  | .write env ret =>
    match s.reader.request env with
    | none => (s, none)
    | some call =>
      -- A request that could not be written is not one that was sent.
      if ret then ({ s with reader := s.reader.wrote true, sent := call :: s.sent }, some call)
      else ({ s with reader := s.reader.wrote false }, none)
  | .read buf =>
    if s.reader.reading = true ∧ 1 ≤ buf.length ∧ buf.length ≤ readLength then
      ({ s with reader := s.reader.received buf }, none)
    else (s, none)
  | .readFails => ({ s with reader := s.reader.readFailed }, none)
  | .program randomBytes pn532 =>
    if s.reader.stage = .writeCard then
      let (err, block) := cardWriteOnBlock4 pn532 randomBytes
      ({ s with
          reader := s.reader.wroteCard randomBytes err
          reports := (block, pn532) :: s.reports }, none)
    else (s, none)

/-- `https_request` as a machine that tells which requests were sent. -/
def httpsRequest : Machine CardSession SessionEvent (Option Call) := ⟨sessionStep⟩

/--
What the server is told of the card is what the driver has confirmed.

Once the driver has reported a failure, no new key is sent and the session returns no grant.
-/
structure Announced (counted : Bool) (s : CardSession) : Prop where
  carried : ∀ call ∈ s.sent, ∀ uid key, newKey call = some (uid, key) →
    ∃ data pn532, (block4 data, pn532) ∈ s.reports ∧ pn532.written ≠ 0 ∧ data.toList = key
  failed : (∃ report ∈ s.reports, report.2.Fails counted) →
    (∀ call ∈ s.sent, newKey call = none) ∧ s.reader.stage ≠ .returned true

/-- A new key is sent only where the driver has reported no failure. -/
def SendsConfirmed (counted : Bool) (s : CardSession) : SessionEvent → Prop
  | .write _ ret =>
    ret = true → s.reader.stage = .sendNewCardKey → ∀ report ∈ s.reports, ¬ report.2.Fails counted
  | _ => True

/-- Before the card is written. -/
def Stage.beforeWrite : Stage → Bool
  | .connect | .sendUidKey | .recvUidKey | .writeCard => true
  | _ => false

/-- After the new key was sent, unless the session has failed. -/
def Stage.afterSend : Stage → Bool
  | .recvNewCardKey | .sendOpen | .recvOpen | .returned true => true
  | _ => false

/-- What the stage of a session says about the reports and the requests so far. -/
structure Confirmed (counted : Bool) (s : CardSession) : Prop where
  announced : Announced counted s
  early : s.reader.stage.beforeWrite = true → s.reports = []
  pending : s.reader.stage = .sendNewCardKey →
    ∃ pn532, s.reports = [(block4 s.reader.randomBytes, pn532)]
  unsent : s.reader.stage.beforeWrite = true ∨ s.reader.stage = .sendNewCardKey →
    ∀ call ∈ s.sent, newKey call = none
  late : s.reader.stage.afterSend = true → ∀ report ∈ s.reports, ¬ report.2.Fails counted

section
variable {counted : Bool} {s : CardSession} {r : Reader}

/-- A session that goes on without a new key, a report or a change of sides stays confirmed. -/
theorem Confirmed.move (confirmed : Confirmed counted s)
    (early : r.stage.beforeWrite = true → s.reader.stage.beforeWrite = true)
    (pending : r.stage = .sendNewCardKey → r = s.reader)
    (late : r.stage.afterSend = true → s.reader.stage.afterSend = true)
    {sent : List Call} (silent : ∀ call ∈ sent, call ∈ s.sent ∨ newKey call = none) :
    Confirmed counted ⟨r, s.reports, sent⟩ := by
  obtain ⟨announced, early', pending', unsent', late'⟩ := confirmed
  refine ⟨⟨fun call listed uid key new => ?_, fun failed => ⟨fun call listed => ?_, ?_⟩⟩,
    fun before => early' (early before), fun sends => ?_, fun waits call listed => ?_,
    fun after => late' (late after)⟩
  · rcases silent call listed with before | none
    · exact announced.carried call before uid key new
    · simp [new] at none
  · exact (silent call listed).elim ((announced.failed failed).1 call) id
  · -- A grant would come after a key that was sent.
    intro passed
    obtain ⟨report, listed, fails⟩ := failed
    have after : r.stage.afterSend = true := by
      rw [show r.stage = .returned true from passed]
      rfl
    exact late' (late after) report listed fails
  · obtain rfl := pending sends
    exact pending' sends
  · have side : s.reader.stage.beforeWrite = true ∨ s.reader.stage = .sendNewCardKey := by
      rcases waits with before | sends
      · exact .inl (early before)
      · exact .inr (pending sends ▸ sends)
    exact (silent call listed).elim (unsent' side call) id

/-- A request that carries no new key leaves a session confirmed. -/
theorem Confirmed.wrote (confirmed : Confirmed counted s) {call : Call}
    (silent : newKey call = none)
    (other : s.reader.stage = .sendUidKey ∨ s.reader.stage = .sendOpen) (ret : Bool) :
    Confirmed counted ⟨s.reader.wrote ret, s.reports, if ret then call :: s.sent else s.sent⟩ := by
  refine confirmed.move ?_ ?_ ?_ fun sent listed => ?_
  · rcases other with stage | stage <;> cases ret <;>
      simp [Reader.wrote, stage, Stage.beforeWrite]
  · rcases other with stage | stage <;> cases ret <;> simp [Reader.wrote, stage]
  · rcases other with stage | stage <;> cases ret <;>
      simp [Reader.wrote, stage, Stage.afterSend]
  · cases ret with
    | false => exact .inl listed
    | true =>
      rcases List.mem_cons.mp listed with rfl | before
      · exact .inr silent
      · exact .inl before

/-- A read does not change what was written or sent. -/
theorem Confirmed.received (confirmed : Confirmed counted s) (reading : s.reader.reading = true)
    (buf : Bytes) : Confirmed counted ⟨s.reader.received buf, s.reports, s.sent⟩ := by
  refine confirmed.move ?_ ?_ ?_ fun _ listed => .inl listed
  -- Each loop that reads is on one side of the write.
  · intro before
    rcases s.reader.received_cases buf with same | ⟨waits, -⟩ | ⟨_, stage⟩ | ⟨_, ⟨_, stage⟩ | stage⟩
    · rwa [same] at before
    · simp [waits, Stage.beforeWrite]
    · rcases stage with stage | stage <;> simp [stage, Stage.beforeWrite] at before
    · simp [stage, Stage.beforeWrite] at before
    · rcases stage with stage | stage <;> simp [stage, Stage.beforeWrite] at before
  · intro sends
    exact absurd (Reader.sends_of_received sends) fun stage => by
      simp [Reader.reading, stage] at reading
  · intro after
    rcases s.reader.received_cases buf with same | ⟨_, _, stage⟩ | ⟨waits, -⟩ | ⟨waits, -⟩
    · rwa [same] at after
    · simp [stage, Stage.afterSend] at after
    · simp [waits, Stage.afterSend]
    · simp [waits, Stage.afterSend]

/-- A read that fails does not change what was written or sent. -/
theorem Confirmed.readFailed (confirmed : Confirmed counted s) :
    Confirmed counted ⟨s.reader.readFailed, s.reports, s.sent⟩ := by
  refine confirmed.move ?_ ?_ ?_ fun _ listed => .inl listed
  all_goals
    unfold Reader.readFailed
    split <;> simp_all [Stage.beforeWrite, Stage.afterSend]

/-- Writing the card adds the report that the next request depends on. -/
theorem Confirmed.program (confirmed : Confirmed counted s) (ready : s.reader.stage = .writeCard)
    (randomBytes : CardKey) (pn532 : Pn532) :
    Confirmed counted ⟨s.reader.wroteCard randomBytes (cardWriteOnBlock4 pn532 randomBytes).1,
      ((cardWriteOnBlock4 pn532 randomBytes).2, pn532) :: s.reports, s.sent⟩ := by
  have before : s.reader.stage.beforeWrite = true := by simp [ready, Stage.beforeWrite]
  have unsent := confirmed.unsent (.inl before)
  have stage : (s.reader.wroteCard randomBytes (cardWriteOnBlock4 pn532 randomBytes).1).stage =
      .sendNewCardKey := by
    simp [Reader.wroteCard, cardWriteOnBlock4, cardWriteOnBlock]
  -- The result of the write is zero, whatever the driver has reported.
  refine ⟨⟨fun call listed uid key new => ?_, fun _ => ⟨unsent, ?_⟩⟩, ?_, fun _ => ?_,
    fun _ => unsent, ?_⟩
  · simp [unsent call listed] at new
  · simp [stage]
  · simp [stage, Stage.beforeWrite]
  · exact ⟨pn532, by rw [confirmed.early before]; rfl⟩
  · simp [stage, Stage.afterSend]

/-- A new key that is sent after a report of success is one the card holds. -/
theorem Confirmed.sends (confirmed : Confirmed counted s) (stage : s.reader.stage = .sendNewCardKey)
    (success : ∀ report ∈ s.reports, ¬ report.2.Fails counted) (env : Env) :
    Confirmed counted ⟨s.reader.wrote true, s.reports,
      newCardKeyCall env s.reader.uid.toList s.reader.randomBytes.toList :: s.sent⟩ := by
  obtain ⟨pn532, only⟩ := confirmed.pending stage
  have sent : (s.reader.wrote true).stage = .recvNewCardKey := by simp [Reader.wrote, stage]
  refine ⟨⟨fun call listed uid key new => ?_, fun failed => ?_⟩, ?_, ?_, ?_, fun _ => success⟩
  · rcases List.mem_cons.mp listed with rfl | before
    · -- The block that was written carries the key.
      rw [newKey_newCardKeyCall] at new
      obtain ⟨rfl, rfl⟩ := Prod.mk.inj (Option.some.inj new)
      have listed : (block4 s.reader.randomBytes, pn532) ∈ s.reports := by simp [only]
      exact ⟨s.reader.randomBytes, pn532, listed, fun none => success _ listed (.inl none), rfl⟩
    · exact confirmed.announced.carried call before uid key new
  · obtain ⟨report, listed, fails⟩ := failed
    exact absurd fails (success report listed)
  · simp [sent, Stage.beforeWrite]
  · simp [sent]
  · simp [sent, Stage.beforeWrite]

/-- Every call of a session in which new keys are sent after a success keeps it confirmed. -/
theorem Confirmed.next (confirmed : Confirmed counted s) {event : SessionEvent}
    (sends : SendsConfirmed counted s event) : Confirmed counted (httpsRequest.next s event) := by
  cases event with
  | connect tls =>
    simp only [Machine.next, httpsRequest, sessionStep]
    split_ifs with ready
    · refine confirmed.move ?_ ?_ ?_ fun _ listed => .inl listed
      · exact fun _ => by simp [ready, Stage.beforeWrite]
      · cases tls <;> simp [Reader.connected]
      · cases tls <;> simp [Reader.connected, Stage.afterSend]
    · exact confirmed
  | write env ret =>
    cases asks : s.reader.request env with
    | none => simpa [Machine.next, httpsRequest, sessionStep, asks] using confirmed
    | some call =>
      have moved : httpsRequest.next s (.write env ret) =
          ⟨s.reader.wrote ret, s.reports, if ret then call :: s.sent else s.sent⟩ := by
        cases ret <;> simp [Machine.next, httpsRequest, sessionStep, asks]
      rw [moved]
      rcases Reader.request_cases asks with ⟨stage, rfl⟩ | ⟨stage, rfl⟩ | ⟨stage, rfl⟩
      · exact confirmed.wrote (newKey_uidKeyCall ..) (.inl stage) ret
      · -- Only this request tells of a new key.
        cases ret with
        | true => exact confirmed.sends stage (sends rfl stage) env
        | false =>
          refine confirmed.move ?_ ?_ ?_ fun _ listed => .inl listed <;>
            simp [Reader.wrote, stage, Stage.beforeWrite, Stage.afterSend]
      · exact confirmed.wrote (newKey_openCall ..) (.inr stage) ret
  | read buf =>
    simp only [Machine.next, httpsRequest, sessionStep]
    split_ifs with ready
    · exact confirmed.received ready.1 buf
    · exact confirmed
  | readFails => exact confirmed.readFailed
  | program randomBytes pn532 =>
    simp only [Machine.next, httpsRequest, sessionStep]
    split_ifs with ready
    · exact confirmed.program ready randomBytes pn532
    · exact confirmed

/-- A new key that is sent after a failure breaks the promise. -/
theorem not_announced_of_sends {event : SessionEvent} (sends : ¬ SendsConfirmed counted s event) :
    ¬ Announced counted (httpsRequest.next s event) := by
  intro announced
  cases event with
  | write env ret =>
    simp only [SendsConfirmed, not_forall, not_not] at sends
    obtain ⟨rfl, stage, report, listed, fails⟩ := sends
    have asks : s.reader.request env =
        some (newCardKeyCall env s.reader.uid.toList s.reader.randomBytes.toList) := by
      simp [Reader.request, stage]
    have moved : httpsRequest.next s (.write env true) =
        ⟨s.reader.wrote true, s.reports,
          newCardKeyCall env s.reader.uid.toList s.reader.randomBytes.toList :: s.sent⟩ := by
      simp [Machine.next, httpsRequest, sessionStep, asks]
    rw [moved] at announced
    -- The request is among those sent, and the report among those made.
    have none := (announced.failed ⟨report, listed, fails⟩).1 _ (List.mem_cons_self ..)
    simp at none
  | _ => exact sends trivial

end

/-- A session that has just been called is confirmed. -/
theorem confirmed_start (counted : Bool) (uid : Uid) (cardKey : CardKey) :
    Confirmed counted (CardSession.start uid cardKey) where
  announced := ⟨by simp [CardSession.start], by simp [CardSession.start]⟩
  early _ := rfl
  pending sends := absurd sends (by simp [CardSession.start, Reader.call])
  unsent _ := by simp [CardSession.start]
  late after := absurd after (by simp [CardSession.start, Reader.call, Stage.afterSend])

/--
Throughout a session the server is told of confirmed keys only, and after a failed write of the
card of none, exactly when no new key is sent after the driver has reported a failure.

The report is logged, and `card_write_on_block` returns zero all the same.
-/
theorem announced_iff (counted : Bool) (uid : Uid) (cardKey : CardKey) (run : List SessionEvent) :
    (∀ done, done <+: run →
      Announced counted (httpsRequest.after (CardSession.start uid cardKey) done)) ↔
      httpsRequest.Along (SendsConfirmed counted) (CardSession.start uid cardKey) run :=
  -- The stage tells which reports and requests there can have been.
  httpsRequest.throughout_iff_along (fun _ confirmed => confirmed.announced)
    (fun _ _ confirmed sends => confirmed.next sends)
    (fun _ _ _ sends => not_announced_of_sends sends) (confirmed_start counted uid cardKey) run

/-- The driver reports a failure, and the server is told of the key all the same. -/
theorem announced_unwritten :
    ¬ ∀ (uid : Uid) (cardKey : CardKey) (run done : List SessionEvent), done <+: run →
      Announced false (httpsRequest.after (CardSession.start uid cardKey) done) := by
  intro announced
  -- The reply to the card is read, and the write of its block fails.
  have told := announced bobUid (firstKey bobUid)
    [.connect true, .write quietEnv true, .read okText, .program (firstKey aliceUid) ⟨1, 0⟩,
      .write quietEnv true] _ List.prefix_rfl
  have failed := (told.failed
    ⟨(block4 (firstKey aliceUid), ⟨1, 0⟩), List.mem_cons_self .., .inl rfl⟩).1
  have none := failed (newCardKeyCall quietEnv bob (firstKey aliceUid).toList)
    (List.mem_cons_self ..)
  simp at none

end Rfid
