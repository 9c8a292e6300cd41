import RfidEncryption.System.Sessions
import RfidEncryption.Server.Replies

/-! Whether the reader takes another reply for the answer to its call for the door. -/

namespace Rfid

open Reactive

/--
Bytes in which the status text can be found among the first `stale` only.

Behind what is left of the replies that were already being read stand whole ones.
-/
def Quiet (unread : Bytes) (stale : Nat) : Prop :=
  ∃ (front : Bytes) (blocks : List Bytes), unread = front ++ blocks.flatten ∧
    (∀ block ∈ blocks, (∃ rest, block = 72 :: rest) ∧ ¬ okText <:+: block) ∧
    (front.length = stale ∨ stale = 0 ∧ ¬ okText <:+: front)

/-- Bytes that are all stale are quiet. -/
theorem quiet_stale (unread : Bytes) : Quiet unread unread.length :=
  ⟨unread, [], by simp, by simp, .inl rfl⟩

section
variable {unread : Bytes} {stale : Nat}

/-- A reply without the status text leaves bytes quiet. -/
theorem Quiet.append (quiet : Quiet unread stale) {block : Bytes}
    (marked : ∃ rest, block = 72 :: rest) (refused : ¬ okText <:+: block) :
    Quiet (unread ++ block) stale := by
  -- The new reply stands behind the others.
  obtain ⟨front, blocks, rfl, whole, part⟩ := quiet
  refine ⟨front, blocks ++ [block], by simp, fun other listed => ?_, part⟩
  rcases List.mem_append.mp listed with before | new
  · exact whole other before
  · obtain rfl := List.mem_singleton.mp new
    exact ⟨marked, refused⟩

/-- What is left of quiet bytes is quiet. -/
theorem Quiet.drop (quiet : Quiet unread stale) (count : Nat) :
    Quiet (unread.drop count) (stale - count) := by
  obtain ⟨front, blocks, rfl, whole, part⟩ := quiet
  -- The bytes dropped end in the front or in one of the replies behind it.
  rw [List.drop_append]
  by_cases within : count ≤ front.length
  · -- The front is cut, and every reply behind it is whole.
    refine ⟨front.drop count, blocks, ?_, whole, ?_⟩
    · rw [Nat.sub_eq_zero_of_le within, List.drop_zero]
    · rcases part with all | ⟨none, refused⟩
      · exact .inl (by rw [List.length_drop, all])
      · exact .inr ⟨by omega, fun found => refused
          (found.trans (List.drop_suffix count front).isInfix)⟩
  · -- The front is used up, and a reply behind it may be cut.
    obtain ⟨rest, behind, cut, suffix, ofBlock⟩ :=
      Text.drop_flatten (count - front.length) blocks
    have spent : stale - count = 0 := by
      rcases part with all | ⟨none, -⟩ <;> omega
    refine ⟨rest, behind, ?_, fun block listed => whole block (suffix.subset listed), ?_⟩
    · rw [List.drop_eq_nil_of_le (by omega), List.nil_append, cut]
    · rw [spent]
      rcases ofBlock with rfl | ⟨block, listed, part⟩
      · exact .inl rfl
      · exact .inr ⟨rfl, fun found => (whole block listed).2 (found.trans part.isInfix)⟩

/-- A read of quiet bytes finds the status text among the stale ones if at all. -/
theorem Quiet.found (quiet : Quiet unread stale) {count : Nat}
    (found : Text.strstr (unread.take count) okText = true) :
    Text.strstr ((unread.take count).take stale) okText = true := by
  obtain ⟨front, blocks, rfl, whole, part⟩ := quiet
  have marked := fun block listed => (whole block listed).1
  -- Replies start with a letter that the text does not hold.
  have absent : (72 : UInt8) ∉ okText := by decide
  rcases part with rfl | ⟨rfl, refused⟩
  · by_cases within : count ≤ front.length
    · -- The read ends within the stale bytes.
      rw [List.take_append_of_le_length within] at found ⊢
      rwa [List.take_of_length_le (by simp)]
    · have chunk : (front ++ blocks.flatten).take count =
          front ++ blocks.flatten.take (count - front.length) := by
        rw [List.take_append, List.take_of_length_le (by omega)]
      rw [chunk, List.take_left' rfl]
      rw [chunk] at found
      -- The fresh bytes start with a mark, which cuts the search in two.
      refine (Text.strstr_front absent (by decide) (by decide) marked found).resolve_right ?_
      rintro ⟨block, listed, inside⟩
      exact (whole block listed).2 inside
  · -- Without stale bytes the text would have to be in a reply that refuses.
    have inside := Text.infix_of_strstr found (List.take_prefix count _).isInfix
    rcases Text.infix_marked absent marked inside with none | ⟨block, listed, found⟩
    · exact absurd none refused
    · exact absurd found (whole block listed).2

end

/-- Before the poll loop every reply on the connection answers something else. -/
def Stage.beforePoll : Stage → Bool
  | .connect | .sendUidKey | .recvUidKey | .writeCard | .sendNewCardKey | .recvNewCardKey => true
  | _ => false

section
variable {r : Reader} {ret : Bool} {buf : Bytes}

/-- Writing a request does not leave the poll loop. -/
theorem early_of_wrote (early : (r.wrote ret).stage.beforePoll = true) :
    r.stage.beforePoll = true := by
  -- The requests before the poll loop lead to reads before it.
  unfold Reader.wrote at early
  split at early <;> cases ret <;> simp_all [Stage.beforePoll]

/-- A failed read does not leave the poll loop. -/
theorem early_of_readFailed (early : r.readFailed.stage.beforePoll = true) :
    r.stage.beforePoll = true := by
  -- A read of the poll loop that fails ends the session.
  unfold Reader.readFailed at early
  split at early <;> simp_all [Stage.beforePoll]

/-- A read does not leave the poll loop. -/
theorem early_of_received (early : (r.received buf).stage.beforePoll = true) :
    r.stage.beforePoll = true := by
  -- Reads of the poll loop stay in it or end the session.
  rcases r.received_cases buf with same | ⟨waits, -⟩ | ⟨waits, -⟩ | ⟨_, ⟨_, stage⟩ | stage | stage⟩
  · rwa [same] at early
  · simp [waits, Stage.beforePoll]
  · simp [waits, Stage.beforePoll]
  all_goals simp [stage, Stage.beforePoll] at early

end

/-- A reader that takes nothing else for a grant. -/
structure Sound (r : Reader) (opened : Prop) : Prop where
  pass : r.stage = .returned true → opened
  early : r.stage.beforePoll = true → r.stale = r.unread.length
  quiet : ¬ opened → Quiet r.unread r.stale

variable {ι : Type*} [DecidableEq ι]

/--
A read of the poll loop finds the status text in an answer to a call for the door.

The bytes of earlier replies that it returns do not hold the text, unless the door was opened.
-/
def FreshGrant (i : ι) (r : Observed ι) (act : Act ι) : Prop :=
  ∀ count, act = .read i count → (r.now.reader i).stage = .recvOpen →
    1 ≤ count ∧ count ≤ readLength ∧ count ≤ (r.now.reader i).unread.length →
    Text.strstr (((r.now.reader i).unread.take count).take (r.now.reader i).stale) okText = true →
      DoorOpened i r.log

section
variable {crypto : Crypto} {s : Sys ι} {i : ι} {act : Act ι} {reader : Reader}
  {answer : Option ServerStep} {log : List (SysStep ι)}

/-- Before the poll loop a reply only adds to the stale bytes. -/
theorem sound_arrive {r : Reader} {opened : Prop} (before : r.stage.beforePoll = true)
    (early : r.stage.beforePoll = true → r.stale = r.unread.length) (bytes : Bytes) :
    Sound ((r.arrive bytes).wrote true) opened := by
  -- The reply is stale from its first byte to its last.
  have stale : (r.arrive bytes).stale = (r.arrive bytes).unread.length := by
    have notOpen : r.stage ≠ .sendOpen := fun stage => by simp [stage, Stage.beforePoll] at before
    simp [Reader.arrive, notOpen, early before]
  refine ⟨fun passed => ?_, fun _ => by simpa using stale, fun _ => ?_⟩
  · have stage := Reader.pass_of_wrote passed
    simp only [Reader.arrive_stage] at stage
    simp [stage, Stage.beforePoll] at before
  · simpa [stale] using quiet_stale (r.arrive bytes).unread

/-- A request that is not answered adds nothing to be read. -/
theorem Sound.wrote {r : Reader} {opened : Prop} (sound : Sound r opened) (ret : Bool) :
    Sound (r.wrote ret) opened := by
  refine ⟨fun passed => sound.pass (Reader.pass_of_wrote passed), fun before => ?_, ?_⟩
  · simpa using sound.early (early_of_wrote before)
  · simpa using sound.quiet

/-- A read keeps a reader sound when a stale grant in it is one of an open door. -/
theorem Sound.read {r : Reader} {opened : Prop} {count : Nat} (sound : Sound r opened)
    (fresh : r.stage = .recvOpen →
      Text.strstr ((r.unread.take count).take r.stale) okText = true → opened) :
    Sound ((r.received (r.unread.take count)).consumed count) opened := by
  refine ⟨fun passed => ?_, fun before => ?_, fun shut => ?_⟩
  · rcases Reader.pass_of_received passed with before | ⟨polling, found⟩
    · exact sound.pass before
    · -- The loop found the text, which only a stale reply can hold here.
      by_contra shut
      exact shut (fresh polling ((sound.quiet shut).found found))
  · simp only [Reader.consumed, Reader.received_unread, Reader.received_stale, List.length_drop]
    rw [sound.early (early_of_received before)]
  · simpa [Reader.consumed] using (sound.quiet shut).drop count

/-- The answer to a call for the door is no stale reply, and a grant only if the door opens. -/
theorem Sound.asked {r : Reader} {granted opened : Prop} (sound : Sound r opened)
    (stage : r.stage = .sendOpen) {bytes : Bytes} (starts : ∃ rest, bytes = 72 :: rest)
    (refused : ¬ granted → ¬ okText <:+: bytes) :
    Sound ((r.arrive bytes).wrote true) (granted ∨ opened) := by
  refine ⟨fun passed => ?_, fun before => ?_, fun shut => ?_⟩
  · exact absurd (Reader.pass_of_wrote passed) (by simp [stage])
  · exact absurd (early_of_wrote before) (by simp [stage, Stage.beforePoll])
  · rw [not_or] at shut
    simpa [Reader.arrive, stage] using (sound.quiet shut.2).append starts (refused shut.1)

/-- A sound reader stays sound through every step that finds no stale grant. -/
theorem Sound.step (move : Moves crypto s i act reader answer)
    (sound : Sound (s.reader i) (DoorOpened i log)) (fresh : FreshGrant i ⟨s, log⟩ act) :
    Sound reader (DoorOpened i (⟨s, act, answer⟩ :: log)) := by
  -- One case for each way a reader can move.
  cases move with
  | tap uid free =>
    -- A new connection has nothing to read.
    refine ⟨?_, ?_, ?_⟩
    · simp [Reader.call]
    · simp [Reader.call]
    · exact fun _ => quiet_stale []
  | connect tls ready =>
    rw [doorOpened_silent (by simp [Taps]) rfl]
    refine ⟨?_, ?_, sound.quiet⟩
    · cases tls <;> simp [Reader.connected]
    · exact fun _ => sound.early (by simp [ready, Stage.beforePoll])
  | lost =>
    rw [doorOpened_silent (by simp [Taps]) (by simp [servedTo])]
    exact sound.wrote true
  | failed =>
    rw [doorOpened_silent (by simp [Taps]) (by simp [servedTo])]
    exact sound.wrote false
  | readFails =>
    rw [doorOpened_silent (by simp [Taps]) rfl]
    refine ⟨fun passed => sound.pass (Reader.pass_of_readFailed passed), fun before => ?_, ?_⟩
    · simpa using sound.early (early_of_readFailed before)
    · simpa using sound.quiet
  | program randomBytes written ready =>
    rw [doorOpened_silent (by simp [Taps]) rfl]
    refine ⟨?_, ?_, sound.quiet⟩
    · simp [Reader.wroteCard, cardWriteOnBlock]
    · exact fun _ => sound.early (by simp [ready, Stage.beforePoll])
  | read count ready bounds =>
    rw [doorOpened_silent (by simp [Taps]) rfl]
    exact sound.read fun polling => fresh count rfl polling bounds
  | served env call asks =>
    have passed :
        ¬ Taps i ⟨s, .write i (.delivered env), some ((server crypto).entry s.server call)⟩ := by
      simp [Taps]
    rw [doorOpened_served passed (if_pos rfl)]
    rcases Reader.request_cases asks with ⟨stage, rfl⟩ | ⟨stage, rfl⟩ | ⟨stage, rfl⟩
    · exact sound_arrive (by simp [stage, Stage.beforePoll]) sound.early _
    · exact sound_arrive (by simp [stage, Stage.beforePoll]) sound.early _
    · -- A call for the door in whose answer the text is found was granted.
      have told := serve_open crypto s.server (openCall env) (openCall_isOpen env)
      refine sound.asked stage (bytes_head _ _ _) fun shut found => ?_
      have head : (openCall env).request.method = "HEAD" := rfl
      rw [told, decide_eq_true head] at found
      refine shut ⟨openCall_isOpen env, ?_⟩
      simpa [Machine.entry, told] using openReply_of_found found
  | stays act answer seen silent =>
    rw [doorOpened_silent (not_taps_of_stays seen) (servedTo_of_stays silent)]
    exact sound

end

section
variable (crypto : Crypto) (cards : Cards) (card : Uid → CardKey) (i : ι)

/-- A stale grant is a grant that nothing opened. -/
theorem pass_of_stale {r : Observed ι} {act : Act ι} (stale : ¬ FreshGrant i r act) :
    (((system ι crypto).recorded.next r act).now.reader i).stage = .returned true ∧
      ¬ DoorOpened i ((system ι crypto).recorded.next r act).log := by
  simp only [FreshGrant, not_forall] at stale
  obtain ⟨count, rfl, polling, bounds, found, shut⟩ := stale
  -- What is found among the stale bytes is found in the whole read.
  have whole := Text.strstr_of_prefix (List.take_prefix _ _) found
  have ready : (r.now.reader i).reading = true := by simp [Reader.reading, polling]
  constructor
  · rw [okText] at whole
    rw [Machine.recorded_next, reader_read crypto r.now ready bounds]
    simp [Reader.received, polling, whole]
  · rw [Machine.recorded_next, doorOpened_silent (by simp [Taps, Machine.entry]) rfl]
    exact shut

/--
The reader returns a grant only after the server gave one, throughout a run, exactly when every
read of the poll loop finds the status text in an answer to a call for the door.

The reader does not know where a reply ends.
What is left of the reply to `New_Card_Key` is read as the answer to the first call.
-/
theorem pass_sound_iff (run : List (Act ι)) :
    (∀ done, done <+: run →
      (((system ι crypto).after (Sys.start cards card) done).reader i).stage = .returned true →
        DoorOpened i ((system ι crypto).history (Sys.start cards card) done)) ↔
      (system ι crypto).recorded.Along (FreshGrant i) ⟨Sys.start cards card, []⟩ run := by
  -- The invariant is that of a reader that takes nothing else for a grant.
  have throughout := (system ι crypto).recorded.throughout_iff_along
    (I := fun r => Sound (r.now.reader i) (DoorOpened i r.log))
    (P := fun r => (r.now.reader i).stage = .returned true → DoorOpened i r.log)
    (C := FreshGrant i) (s := ⟨Sys.start cards card, []⟩)
    (fun _ sound => sound.pass)
    (fun r act sound fresh => sound.step (moves crypto r.now act i) fresh)
    (fun r act _ stale holds =>
      (pass_of_stale crypto i stale).2 (holds (pass_of_stale crypto i stale).1))
    ⟨by simp [Sys.start, Reader.start], by simp [Sys.start, Reader.start, Stage.beforePoll],
      fun _ => quiet_stale []⟩ run
  rw [← throughout]
  refine forall_congr' fun done => imp_congr_right fun _ => ?_
  rw [Machine.recorded_after]

end

/-- Bob presents his card and leaves, and the first reply is read in two parts. -/
def splitVisit : List (Act Unit) :=
  [.tap () bobUid, .connect () true, .write () (.delivered quietEnv), .read () 101,
    .program () (firstKey aliceUid) true, .write () (.delivered quietEnv), .read () 8,
    .write () (.delivered quietEnv), .read () 109]

/-- The reader takes the reply to `New_Card_Key` for a grant that nobody logged in for. -/
theorem pass_without_grant :
    ¬ ∀ (cards : Cards) (card : Uid → CardKey) (run done : List (Act Unit)), done <+: run →
      (((system Unit Crypto.standard).after (Sys.start cards card) done).reader ()).stage =
        .returned true →
      DoorOpened () ((system Unit Crypto.standard).history (Sys.start cards card) done) := by
  intro sound
  -- The reader returns the grant at the end of the visit.
  have opened := sound twoCards firstKey splitVisit splitVisit List.prefix_rfl (by decide +kernel)
  -- The only call for the door was answered 401.
  exact absurd opened (by decide +kernel)

end Rfid
