import RfidEncryption.System.Sessions
import RfidEncryption.Server.Replies

/-! Whether a grant reaches the reader whose user logged in. -/

namespace Rfid

open Reactive

variable {ι : Type*} [DecidableEq ι]

/-- Every read returns one whole reply, and fails only when there is none. -/
def Prompt (s : Sys ι) : Act ι → Prop
  | .read i count => count = (s.reader i).unread.length
  | .readFails i => (s.reader i).unread = []
  | _ => True

instance (s : Sys ι) (act : Act ι) : Decidable (Prompt s act) :=
  match act with
  | .read i count => inferInstanceAs (Decidable (count = (s.reader i).unread.length))
  | .readFails i => inferInstanceAs (Decidable ((s.reader i).unread = []))
  | .request _ | .tap _ _ | .connect _ _ | .write _ _ | .program _ _ _ =>
    inferInstanceAs (Decidable True)

section
variable (crypto : Crypto)

/--
A call for the door that finds both flags set comes from a reader whose own user logged in.

The call does not say whose reader it comes from, and the flags do not say whom they are for.
-/
def AsksForOwn (r : Observed ι) : Act ι → Prop
  | .write i (.delivered _) =>
    (r.now.reader i).stage = .sendOpen → r.now.server.passing = true →
      r.now.server.checker = true → OwnLogin crypto i (r.now.reader i).uid.toList r.log
  | _ => True

instance (r : Observed ι) (act : Act ι) : Decidable (AsksForOwn crypto r act) :=
  match act with
  | .write i (.delivered _) =>
    inferInstanceAs (Decidable ((r.now.reader i).stage = .sendOpen → _ → _ → OwnLogin ..))
  | .write _ .lost | .write _ .failed | .request _ | .tap _ _ | .connect _ _ | .read _ _
  | .readFails _ | .program _ _ _ => inferInstanceAs (Decidable True)

/-- What a reader has still to read of a server that grants to its own user only. -/
structure Owned (i : ι) (r : Reader) (log : List (SysStep ι)) : Prop where
  pass : r.stage = .returned true → OwnLogin crypto i r.uid.toList log
  quiet : r.reading = false → r.busy = true → r.unread = []
  told : r.stage = .recvOpen → r.unread = [] ∨
    ∃ answer date, r.unread = (openReply answer).bytes true date ∧
      ((openReply answer).status = .ok → OwnLogin crypto i r.uid.toList log)

end

section
variable {crypto : Crypto} {s : Sys ι} {i : ι} {act : Act ι} {reader : Reader}
  {answer : Option ServerStep} {log : List (SysStep ι)}

/-- A step that is no tap leaves a reader with its own grants. -/
theorem Owned.later {r : Reader} {e : SysStep ι} (owned : Owned crypto i r log)
    (passed : ¬ Taps i e) : Owned crypto i r (e :: log) := by
  refine ⟨fun pass => (owned.pass pass).later passed, owned.quiet, fun polls => ?_⟩
  refine (owned.told polls).imp id ?_
  intro told
  obtain ⟨answer, date, reply, own⟩ := told
  exact ⟨answer, date, reply, fun ok => (own ok).later passed⟩

/-- Writing a request that is not answered leaves what is to be read as it was. -/
theorem Owned.wrote {r : Reader} {ret : Bool} {e : SysStep ι} (owned : Owned crypto i r log)
    (passed : ¬ Taps i e) : Owned crypto i (r.wrote ret) (e :: log) := by
  -- A write adds no byte and no grant.
  refine ⟨fun pass => ?_, fun waits busy => ?_, fun polls => ?_⟩
  · simpa using (owned.pass (Reader.pass_of_wrote pass)).later passed
  · obtain ⟨waits, busy⟩ := Reader.waits_of_wrote waits busy
    simpa using owned.quiet waits busy
  · rcases Reader.polls_of_wrote polls with sends | polls
    · -- Whoever sends the call has read everything before it.
      have nothing := owned.quiet (by simp [Reader.reading, sends]) (by simp [Reader.busy, sends])
      exact .inl (by rwa [Reader.wrote_unread])
    · simpa using (owned.later passed).told polls

/-- A reader that has asked for the door has the answer to read, and nothing before it. -/
theorem Owned.asked {r : Reader} (owned : Owned crypto i r log) (stage : r.stage = .sendOpen)
    {answer : Latch.Answer} {e : SysStep ι} (date : HttpDate)
    (own : (openReply answer).status = .ok → OwnLogin crypto i r.uid.toList (e :: log)) :
    Owned crypto i ((r.arrive ((openReply answer).bytes true date)).wrote true) (e :: log) := by
  have nothing := owned.quiet (by simp [Reader.reading, stage]) (by simp [Reader.busy, stage])
  refine ⟨?_, ?_, fun _ => .inr ⟨answer, date, ?_, ?_⟩⟩
  · simp [Reader.wrote, stage]
  · simp [Reader.wrote, Reader.reading, stage]
  · simp [Reader.arrive, nothing]
  · simpa using own

/-- A read that empties the connection finds a grant only for the reader's own user. -/
theorem Owned.read {r : Reader} {e : SysStep ι} {count : Nat} (owned : Owned crypto i r log)
    (passed : ¬ Taps i e) (all : count = r.unread.length) :
    Owned crypto i ((r.received (r.unread.take count)).consumed count) (e :: log) := by
  have rest : ((r.received (r.unread.take count)).consumed count).unread = [] := by
    simp [Reader.consumed, all]
  refine ⟨fun pass => ?_, fun _ _ => rest, fun _ => .inl rest⟩
  rcases Reader.pass_of_received pass with before | ⟨polling, found⟩
  · simpa using (owned.pass before).later passed
  · -- The text was found, so there was a reply, and it was a grant.
    rcases owned.told polling with nothing | ⟨answer, date, reply, own⟩
    · rw [nothing, List.take_nil] at found
      exact absurd found (by decide)
    · have inside := Text.infix_of_strstr found (List.take_prefix count _).isInfix
      rw [reply] at inside
      simpa using (own (openReply_of_found inside)).later passed

/-- A reader keeps being told of its own user's grants only. -/
theorem Owned.step (move : Moves crypto s i act reader answer)
    (owned : Owned crypto i (s.reader i) log)
    (prompt : Prompt s act) (own : AsksForOwn crypto ⟨s, log⟩ act) :
    Owned crypto i reader (⟨s, act, answer⟩ :: log) := by
  -- One case for each way a reader can move.
  cases move with
  | tap uid free => exact ⟨by simp [Reader.call], fun _ _ => rfl, by simp [Reader.call]⟩
  | connect tls ready =>
    have nothing := owned.quiet (by simp [Reader.reading, ready]) (by simp [Reader.busy, ready])
    refine ⟨?_, fun _ _ => nothing, ?_⟩ <;> cases tls <;> simp [Reader.connected]
  | lost => exact owned.wrote (by simp [Taps])
  | failed => exact owned.wrote (by simp [Taps])
  | served env call asks =>
    rcases Reader.request_cases asks with ⟨stage, rfl⟩ | ⟨stage, rfl⟩ | ⟨stage, rfl⟩
    · refine ⟨?_, ?_, ?_⟩ <;> simp [Reader.wrote, Reader.reading, stage]
    · refine ⟨?_, ?_, ?_⟩ <;> simp [Reader.wrote, Reader.reading, stage]
    · -- A grant was asked for by the reader whose own user logged in.
      have told := serve_open crypto s.server (openCall env) (openCall_isOpen env)
      have head : (openCall env).request.method = "HEAD" := rfl
      rw [told, decide_eq_true head]
      refine owned.asked stage env.date fun ok => ?_
      rw [← told, open_ok crypto _ _ (openCall_isOpen env)] at ok
      exact (own stage ok.1 ok.2).later (by simp [Taps])
  | read count ready bounds => exact owned.read (by simp [Taps]) prompt
  | readFails =>
    have nothing : (s.reader i).readFailed.unread = [] := by
      rw [Reader.readFailed_unread]
      exact prompt
    refine ⟨fun passed => ?_, fun _ _ => nothing, fun _ => .inl nothing⟩
    simpa using (owned.pass (Reader.pass_of_readFailed passed)).later (by simp [Taps])
  | program randomBytes written ready =>
    have nothing := owned.quiet (by simp [Reader.reading, ready]) (by simp [Reader.busy, ready])
    exact ⟨by simp [Reader.wroteCard, cardWriteOnBlock], fun _ _ => nothing,
      by simp [Reader.wroteCard, cardWriteOnBlock]⟩
  | stays act answer seen silent => exact owned.later (not_taps_of_stays seen)

end

/--
Throughout a run a reader returns a grant only to its own user, as long as every call for the door
that finds both flags set comes from a reader whose own user logged in.
-/
theorem grant_reaches_owner (crypto : Crypto) (cards : Cards) (card : Uid → CardKey)
    (run : List (Act ι))
    (prompt : (system ι crypto).Along Prompt (Sys.start cards card) run)
    (own : (system ι crypto).recorded.Along (AsksForOwn crypto) ⟨Sys.start cards card, []⟩ run) :
    ∀ done, done <+: run → ∀ i,
      (((system ι crypto).after (Sys.start cards card) done).reader i).stage = .returned true →
        OwnLogin crypto i
          (((system ι crypto).after (Sys.start cards card) done).reader i).uid.toList
          ((system ι crypto).history (Sys.start cards card) done) := by
  intro done initial i
  obtain ⟨rest, rfl⟩ := initial
  -- Only the steps up to the state that is asked about matter.
  rw [Machine.along_append] at prompt own
  -- Both conditions are met along the recorded run, which keeps the reader to its own user.
  have along := (Machine.along_and _).mpr
    ⟨((system ι crypto).recorded_along (r := ⟨Sys.start cards card, []⟩)).mpr prompt.1, own.1⟩
  have owned := (system ι crypto).recorded.after_invariant
    (I := fun r => Owned crypto i (r.now.reader i) r.log)
    (fun r act owned met => owned.step (moves crypto r.now act i) met.1 met.2)
    ⟨by simp [Sys.start, Reader.start], fun _ _ => rfl, by simp [Sys.start, Reader.start]⟩ along
  rw [Machine.recorded_after] at owned
  exact owned.pass

/-- Bob's reader opens for Bob. -/
theorem grant_reaches_bob :
    OwnLogin Crypto.standard ()
      (((system Unit Crypto.standard).after (Sys.start twoCards firstKey) bobVisit).reader
        ()).uid.toList
      ((system Unit Crypto.standard).history (Sys.start twoCards firstKey) bobVisit) := by
  -- The visit is one run, in which all conditions are met.
  have visit :
      (system Unit Crypto.standard).Along Prompt (Sys.start twoCards firstKey) bobVisit ∧
        (system Unit Crypto.standard).recorded.Along (AsksForOwn Crypto.standard)
          ⟨Sys.start twoCards firstKey, []⟩ bobVisit ∧
        (((system Unit Crypto.standard).after (Sys.start twoCards firstKey) bobVisit).reader
          ()).stage = .returned true := by decide +kernel
  obtain ⟨prompt, own, passed⟩ := visit
  exact grant_reaches_owner Crypto.standard twoCards firstKey bobVisit prompt own bobVisit
    List.prefix_rfl () passed

/-- Alice's reader opens when Bob, at another one, logs in. -/
theorem grant_reaches_stranger :
    ¬ ∀ (cards : Cards) (card : Uid → CardKey) (run : List (Act Bool)),
      (system Bool Crypto.standard).Along Orderly (Sys.start cards card) run →
      ∀ done, done <+: run → ∀ i,
        (((system Bool Crypto.standard).after (Sys.start cards card) done).reader i).stage =
          .returned true →
        OwnLogin Crypto.standard i
          (((system Bool Crypto.standard).after (Sys.start cards card) done).reader i).uid.toList
          ((system Bool Crypto.standard).history (Sys.start cards card) done) := by
  intro owned
  let run := smoothVisit false aliceUid (firstKey bobUid) ++
    smoothVisit true bobUid (firstKey aliceUid) ++
      [.request (loginCall bob), .write false (.delivered quietEnv), .read false 82]
  -- Alice has not logged in at all.
  have visit : (system Bool Crypto.standard).Along Orderly (Sys.start twoCards firstKey) run ∧
      let last := (system Bool Crypto.standard).after (Sys.start twoCards firstKey) run
      (last.reader false).stage = .returned true ∧
        ¬ OwnLogin Crypto.standard false (last.reader false).uid.toList
          ((system Bool Crypto.standard).history (Sys.start twoCards firstKey) run) := by
    decide +kernel
  obtain ⟨orderly, passed, strange⟩ := visit
  exact strange (owned twoCards firstKey run orderly run List.prefix_rfl false passed)

end Rfid
