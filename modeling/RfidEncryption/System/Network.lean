import RfidEncryption.Reader.Request
import RfidEncryption.Server.Log

/-! The server, its readers and their cards, and every order in which they can take steps. -/

namespace Rfid

open Reactive

/-- What becomes of a request that is written to a connection. -/
inductive Fate where
  /-- The server answers it. -/
  | delivered (env : Env)
  /-- It is sent, but never reaches the server. -/
  | lost
  /-- It cannot be sent. -/
  | failed

/-- One step of the system, where `ι` names the readers. -/
inductive Act (ι : Type*) where
  /-- Some other client's request is served. -/
  | request (call : Call)
  /-- A card is presented to a reader. -/
  | tap (i : ι) (uid : Uid)
  /-- A reader opens its connection, or fails to. -/
  | connect (i : ι) (tls : Bool)
  /-- A reader writes a request. -/
  | write (i : ι) (fate : Fate)
  /-- A read returns so many bytes. -/
  | read (i : ι) (count : Nat)
  /-- A read returns nothing. -/
  | readFails (i : ι)
  /-- A reader writes random bytes to its card, or fails to. -/
  | program (i : ι) (randomBytes : CardKey) (written : Bool)

/-- The server, the key each card returns, and the readers. -/
structure Sys (ι : Type*) where
  server : Server
  card : Uid → CardKey
  reader : ι → Reader

variable {ι : Type*} [DecidableEq ι]

namespace Sys

/-- A process that has just started, with no card at any reader. -/
def start (cards : Cards) (card : Uid → CardKey) : Sys ι :=
  { server := Server.start cards, card, reader := fun _ => Reader.start }

variable (s : Sys ι)

/-- The system with another state of one reader. -/
def setReader (i : ι) (r : Reader) : Sys ι :=
  { s with reader := Function.update s.reader i r }

end Sys

/--
One step of the system and the request served in it, if there is one.

A step that a reader is not ready for changes nothing.
-/
def step (crypto : Crypto) (s : Sys ι) : Act ι → Sys ι × Option ServerStep
  | .request call =>
    ({ s with server := (server crypto).next s.server call },
      some ((server crypto).entry s.server call))
  | .tap i uid =>
    -- The reader looks for a card only between two sessions.
    if (s.reader i).busy then (s, none)
    else (s.setReader i ((s.reader i).call uid (s.card uid)), none)
  | .connect i tls =>
    if (s.reader i).stage = .connect then (s.setReader i ((s.reader i).connected tls), none)
    else (s, none)
  | .write i fate =>
    let r := s.reader i
    match fate with
    | .delivered env =>
      match r.request env with
      -- The reader has nothing to write here.
      | none => (s, none)
      | some call =>
        -- The server serves the request at once, and the reply waits on the connection.
        let reply := (server crypto).answer s.server call
        let head := call.request.method = "HEAD"
        ({ s with server := (server crypto).next s.server call }.setReader i
            ((r.arrive (reply.bytes head env.date)).wrote true),
          some ((server crypto).entry s.server call))
    -- The library accepts the bytes, but nobody serves them.
    | .lost => (s.setReader i (r.wrote true), none)
    | .failed => (s.setReader i (r.wrote false), none)
  | .read i count =>
    let r := s.reader i
    -- A read returns some of the bytes that wait, as many as the buffer holds.
    if r.reading = true ∧ 1 ≤ count ∧ count ≤ readLength ∧ count ≤ r.unread.length then
      (s.setReader i ((r.received (r.unread.take count)).consumed count), none)
    else (s, none)
  | .readFails i =>
    (s.setReader i (s.reader i).readFailed, none)
  | .program i randomBytes written =>
    let r := s.reader i
    -- The card keeps its key if the write fails, which the reader does not notice.
    if r.stage = .writeCard then
      ({ s with
          card := if written then Function.update s.card r.uid randomBytes else s.card }.setReader i
          (r.wroteCard randomBytes (cardWriteOnBlock written)), none)
    else (s, none)

/-- The system as a machine that tells which requests were served. -/
def system (ι : Type*) [DecidableEq ι] (crypto : Crypto) :
    Machine (Sys ι) (Act ι) (Option ServerStep) := ⟨step crypto⟩

namespace Sys

variable (s : Sys ι) (i j : ι) (r : Reader)

@[simp] theorem setReader_server : (s.setReader i r).server = s.server := rfl

@[simp] theorem setReader_card : (s.setReader i r).card = s.card := rfl

@[simp] theorem setReader_same : (s.setReader i r).reader i = r := by
  simp [setReader]

@[simp] theorem setReader_other (other : j ≠ i) : (s.setReader i r).reader j = s.reader j := by
  simp [setReader, other]

end Sys

/-- What one step of the system can do to one of its readers. -/
inductive Moves (crypto : Crypto) (s : Sys ι) (i : ι) :
    Act ι → Reader → Option ServerStep → Prop
  | tap (uid : Uid) (free : (s.reader i).busy = false) :
    Moves crypto s i (.tap i uid) ((s.reader i).call uid (s.card uid)) none
  | connect (tls : Bool) (ready : (s.reader i).stage = .connect) :
    Moves crypto s i (.connect i tls) ((s.reader i).connected tls) none
  | served (env : Env) (call : Call) (asks : (s.reader i).request env = some call) :
    Moves crypto s i (.write i (.delivered env))
      (((s.reader i).arrive (((server crypto).answer s.server call).bytes
        (call.request.method = "HEAD") env.date)).wrote true)
      (some ((server crypto).entry s.server call))
  | lost : Moves crypto s i (.write i .lost) ((s.reader i).wrote true) none
  | failed : Moves crypto s i (.write i .failed) ((s.reader i).wrote false) none
  | read (count : Nat) (ready : (s.reader i).reading = true)
    (bounds : 1 ≤ count ∧ count ≤ readLength ∧ count ≤ (s.reader i).unread.length) :
    Moves crypto s i (.read i count)
      (((s.reader i).received ((s.reader i).unread.take count)).consumed count) none
  | readFails : Moves crypto s i (.readFails i) (s.reader i).readFailed none
  | program (randomBytes : CardKey) (written : Bool) (ready : (s.reader i).stage = .writeCard) :
    Moves crypto s i (.program i randomBytes written)
      ((s.reader i).wroteCard randomBytes (cardWriteOnBlock written)) none
  | stays (act : Act ι) (answer : Option ServerStep)
    (seen : ∀ uid, act = .tap i uid → (s.reader i).busy = true)
    (silent : ∀ fate, act = .write i fate → answer = none) :
    Moves crypto s i act (s.reader i) answer

section
variable (crypto : Crypto) (s : Sys ι) (act : Act ι)

/-- Which reader takes a step, if one does. -/
def Act.actor : Act ι → Option ι
  | .request _ => none
  | .tap i _ | .connect i _ | .write i _ | .read i _ | .readFails i | .program i _ _ => some i

/-- A reader that does not take the step stays as it is. -/
theorem reader_away {i : ι} (away : act.actor ≠ some i) :
    ((system ι crypto).next s act).reader i = s.reader i := by
  -- Every step sets at most the state of the reader that takes it.
  cases act with
  | request call => rfl
  | write j fate =>
    have other : i ≠ j := fun same => away (by rw [same]; rfl)
    cases fate with
    | delivered env =>
      simp only [Machine.next, system, step]
      split <;> simp [other]
    | _ => simp [Machine.next, system, step, other]
  | tap j _ | connect j _ | read j _ | readFails j | program j _ _ =>
    have other : i ≠ j := fun same => away (by rw [same]; rfl)
    simp only [Machine.next, system, step]
    try split_ifs
    all_goals simp [other]

/-- Every step moves each reader in one of these ways. -/
theorem moves (i : ι) :
    Moves crypto s i act (((system ι crypto).next s act).reader i)
      ((system ι crypto).answer s act) := by
  -- Either the step is this reader's, and the definition of a step says how it moves.
  by_cases own : act.actor = some i
  · cases act with
    | request call => exact absurd own (by simp [Act.actor])
    | tap j uid =>
      obtain rfl := Option.some.inj own
      simp only [Machine.next, Machine.answer, system, step]
      split_ifs with busy
      · exact .stays _ _ (fun _ _ => busy) (by simp)
      · simpa using .tap uid (by simpa using busy)
    | connect j tls =>
      obtain rfl := Option.some.inj own
      simp only [Machine.next, Machine.answer, system, step]
      split_ifs with ready
      · simpa using .connect tls ready
      · exact .stays _ _ (by simp) (by simp)
    | write j fate =>
      obtain rfl := Option.some.inj own
      cases fate with
      | delivered env =>
        simp only [Machine.next, Machine.answer, system, step]
        split
        · exact .stays _ _ (by simp) (by simp)
        · rename_i call asks
          simpa using .served env call asks
      | lost => simpa [Machine.next, Machine.answer, system, step] using .lost
      | failed => simpa [Machine.next, Machine.answer, system, step] using .failed
    | read j count =>
      obtain rfl := Option.some.inj own
      simp only [Machine.next, Machine.answer, system, step]
      split_ifs with ready
      · simpa using .read count ready.1 ready.2
      · exact .stays _ _ (by simp) (by simp)
    | readFails j =>
      obtain rfl := Option.some.inj own
      simpa [Machine.next, Machine.answer, system, step] using .readFails
    | program j randomBytes written =>
      obtain rfl := Option.some.inj own
      simp only [Machine.next, Machine.answer, system, step]
      by_cases ready : (s.reader j).stage = .writeCard
      · simpa [ready] using .program randomBytes written ready
      · rw [if_neg ready]
        exact .stays _ _ (by simp) (by simp)
  · -- Another reader's step, or a request of another client, leaves the reader alone.
    rw [reader_away crypto s act own]
    refine .stays _ _ (fun uid same => ?_) (fun fate same => ?_)
    · exact absurd (by rw [same]; rfl) own
    · exact absurd (by rw [same]; rfl) own

/-- A read that returns bytes hands them to the reader. -/
theorem reader_read {i : ι} {count : Nat} (ready : (s.reader i).reading = true)
    (bounds : 1 ≤ count ∧ count ≤ readLength ∧ count ≤ (s.reader i).unread.length) :
    ((system ι crypto).next s (.read i count)).reader i =
      ((s.reader i).received ((s.reader i).unread.take count)).consumed count := by
  -- The read is one the step allows.
  simp only [Machine.next, system, step]
  rw [if_pos ⟨ready, bounds⟩]
  exact Sys.setReader_same ..

/-- A step serves one request, of a reader or of another client, or leaves the server alone. -/
theorem server_cases :
    ((system ι crypto).answer s act = none ∧
      ((system ι crypto).next s act).server = s.server) ∨
    ∃ call, (system ι crypto).answer s act = some ((server crypto).entry s.server call) ∧
      ((system ι crypto).next s act).server = (server crypto).next s.server call ∧
        (act = .request call ∨
          ∃ i env, act = .write i (.delivered env) ∧ (s.reader i).request env = some call) := by
  -- Only a request that is delivered is served.
  cases act with
  | request call => exact .inr ⟨call, rfl, rfl, .inl rfl⟩
  | write i fate =>
    cases fate with
    | delivered env =>
      simp only [Machine.next, Machine.answer, system, step]
      split
      · exact .inl ⟨rfl, rfl⟩
      · rename_i call asks
        exact .inr ⟨call, rfl, rfl, .inr ⟨i, env, rfl, asks⟩⟩
    | _ => exact .inl ⟨rfl, rfl⟩
  | readFails i => exact .inl ⟨rfl, rfl⟩
  | tap i _ | connect i _ | read i _ | program i _ _ =>
    simp only [Machine.next, Machine.answer, system, step]
    split_ifs <;> exact .inl ⟨rfl, rfl⟩

/-- A reader that writes to its card leaves its random bytes there. -/
theorem card_program {i : ι} {randomBytes : CardKey} (ready : (s.reader i).stage = .writeCard) :
    ((system ι crypto).next s (.program i randomBytes true)).card =
      Function.update s.card (s.reader i).uid randomBytes := by
  -- The reader stands where the card is written.
  simp only [Machine.next, system, step]
  rw [if_pos ready]
  rfl

/-- A reader that writes to its card goes on with its random bytes. -/
theorem reader_program {i : ι} {randomBytes : CardKey} {written : Bool}
    (ready : (s.reader i).stage = .writeCard) :
    ((system ι crypto).next s (.program i randomBytes written)).reader i =
      (s.reader i).wroteCard randomBytes (cardWriteOnBlock written) := by
  simp only [Machine.next, system, step]
  rw [if_pos ready]
  exact Sys.setReader_same ..

/-- A step writes to the card at one reader, or leaves the cards alone. -/
theorem card_cases :
    ((system ι crypto).next s act).card = s.card ∨
    ∃ i randomBytes, act = .program i randomBytes true ∧ (s.reader i).stage = .writeCard ∧
      ((system ι crypto).next s act).card =
        Function.update s.card (s.reader i).uid randomBytes := by
  -- Only a reader that stands before its write touches a card.
  cases act with
  | program i randomBytes written =>
    simp only [Machine.next, system, step]
    split_ifs with ready done
    · obtain rfl := done
      exact .inr ⟨i, randomBytes, rfl, ready, rfl⟩
    · exact .inl rfl
    · exact .inl rfl
  | request call => exact .inl rfl
  | write i fate =>
    refine .inl ?_
    cases fate with
    | delivered env =>
      simp only [Machine.next, system, step]
      split <;> rfl
    | _ => rfl
  | readFails i => exact .inl rfl
  | tap i _ | connect i _ | read i _ =>
    simp only [Machine.next, system, step]
    split_ifs <;> exact .inl rfl

end

section
variable {crypto : Crypto} {s : Sys ι} {i : ι} {act : Act ι} {reader : Reader}
  {answer : Option ServerStep}

omit [DecidableEq ι] in
/-- A session in progress was begun in this step, or goes on with the same card. -/
theorem Moves.busy (move : Moves crypto s i act reader answer) (busy : reader.busy = true) :
    act = .tap i reader.uid ∧ (s.reader i).busy = false ∨
      (s.reader i).busy = true ∧ reader.uid = (s.reader i).uid := by
  -- Nothing but a tap changes which card a session is about.
  cases move with
  | tap uid free => exact .inl ⟨rfl, free⟩
  | connect tls ready => exact .inr ⟨by simp [Reader.busy, ready], rfl⟩
  | served env call asks =>
    refine .inr ⟨?_, by simp⟩
    rcases Reader.request_cases asks with ⟨stage, -⟩ | ⟨stage, -⟩ | ⟨stage, -⟩ <;>
      simp [Reader.busy, stage]
  | lost => exact .inr ⟨Reader.busy_of_wrote busy, by simp⟩
  | failed => exact .inr ⟨Reader.busy_of_wrote busy, by simp⟩
  | read count ready bounds =>
    refine .inr ⟨?_, by simp⟩
    -- Whoever reads has a session in progress.
    unfold Reader.reading at ready
    unfold Reader.busy
    split at ready <;> simp_all
  | readFails => exact .inr ⟨Reader.busy_of_readFailed busy, by simp⟩
  | program randomBytes written ready => exact .inr ⟨by simp [Reader.busy, ready], rfl⟩
  | stays act answer seen silent => exact .inr ⟨busy, rfl⟩

omit [DecidableEq ι] in
/-- A reader about to send its card's new key wrote it in this step, or was about to before. -/
theorem Moves.sends (move : Moves crypto s i act reader answer)
    (sends : reader.stage = .sendNewCardKey) :
    (∃ written, act = .program i reader.randomBytes written ∧ (s.reader i).stage = .writeCard ∧
      reader.uid = (s.reader i).uid) ∨ reader = s.reader i := by
  -- Only the write to the card leads there.
  cases move with
  | tap uid free => simp [Reader.call] at sends
  | connect tls ready => cases tls <;> simp [Reader.connected] at sends
  | served env call asks =>
    rcases Reader.request_cases asks with ⟨stage, -⟩ | ⟨stage, -⟩ | ⟨stage, -⟩ <;>
      simp [Reader.wrote, stage] at sends
  | lost =>
    unfold Reader.wrote at sends ⊢
    split at sends <;> simp_all
  | failed =>
    unfold Reader.wrote at sends ⊢
    split at sends <;> simp_all
  | read count ready bounds =>
    -- A read would have had to start from there.
    have stage := Reader.sends_of_received sends
    simp [Reader.reading, stage] at ready
  | readFails =>
    unfold Reader.readFailed at sends ⊢
    split at sends <;> simp_all
  | program randomBytes written ready => exact .inl ⟨written, rfl, ready, rfl⟩
  | stays act answer seen silent => exact .inr rfl

omit [DecidableEq ι] in
/-- A reader about to send its card's new key stays so until it writes a request. -/
theorem Moves.unsent (move : Moves crypto s i act reader answer)
    (sends : (s.reader i).stage = .sendNewCardKey) :
    (∃ fate, act = .write i fate) ∨ reader = s.reader i := by
  -- The reader is not free, does not connect, does not read and does not write to its card.
  cases move with
  | tap uid free => simp [Reader.busy, sends] at free
  | connect tls ready => simp [sends] at ready
  | served env call asks => exact .inl ⟨_, rfl⟩
  | lost => exact .inl ⟨_, rfl⟩
  | failed => exact .inl ⟨_, rfl⟩
  | read count ready bounds => simp [Reader.reading, sends] at ready
  | readFails => exact .inr (by simp [Reader.readFailed, sends])
  | program randomBytes written ready => simp [sends] at ready
  | stays act answer seen silent => exact .inr rfl

end

end Rfid
