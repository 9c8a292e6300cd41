import RfidEncryption.System.Sessions
import RfidEncryption.System.StoredKey
import RfidEncryption.Server.KeyHistory
import RfidEncryption.Server.Replies

/-! Whether a card is still accepted after sessions in which the connection failed. -/

namespace Rfid

open Reactive

/--
The one enrolled card at the one reader, whose reads and writes are exact.

The connection may fail at any point, but neither the card nor the database does.
-/
def OneCard (uid : Uid) (_ : Sys Unit) : Act Unit → Prop
  | .request call => call.json.map Request.type = some "Password"
  | .tap _ presented => presented = uid
  | .write _ (.delivered env) => env.execFails = false ∧ env.scanFails = false
  | .program _ _ written => written = true
  | _ => True

instance (uid : Uid) (s : Sys Unit) (act : Act Unit) : Decidable (OneCard uid s act) :=
  match act with
  | .request call => inferInstanceAs (Decidable (call.json.map Request.type = some "Password"))
  | .tap _ presented => inferInstanceAs (Decidable (presented = uid))
  | .write _ (.delivered env) =>
    inferInstanceAs (Decidable (env.execFails = false ∧ env.scanFails = false))
  | .program _ _ written => inferInstanceAs (Decidable (written = true))
  | .write _ .lost | .write _ .failed | .connect _ _ | .read _ _ | .readFails _ =>
    inferInstanceAs (Decidable True)

/--
The request that names the card's new key reaches the server, or the key was stored there already.

The card holds the new key by then, and the request is not sent again.
-/
def NewKeyArrives (s : Sys Unit) : Act Unit → Prop
  | .write i fate => (s.reader i).stage = .sendNewCardKey → fate.Delivered ∨ AlreadyStored s i
  | _ => True

instance (s : Sys Unit) (act : Act Unit) : Decidable (NewKeyArrives s act) :=
  match act with
  | .write i fate =>
    inferInstanceAs (Decidable ((s.reader i).stage = _ → fate.Delivered ∨ AlreadyStored s i))
  | .request _ | .tap _ _ | .connect _ _ | .read _ _ | .readFails _ | .program _ _ _ =>
    inferInstanceAs (Decidable True)

/-- The next time the card is presented without a failure, its `UID_KEY` request is accepted. -/
def NextTapAccepted (crypto : Crypto) (uid : Uid) (s : Sys Unit) : Prop :=
  ∀ env, env.scanFails = false →
    ∃ served ∈ (system Unit crypto).answer
        ((system Unit crypto).after s [.tap () uid, .connect () true]) (.write () (.delivered env)),
      Accepted crypto uid.toList served

/-- Before the card's key is sent to the server. -/
def Reader.Asking (r : Reader) : Prop := r.stage = .connect ∨ r.stage = .sendUidKey

/-- From the server's acceptance of the card until its new key is sent. -/
def Reader.Cleared (r : Reader) : Prop :=
  r.stage = .recvUidKey ∧ okText <:+: r.unread ∨ r.stage = .writeCard ∨ r.stage = .sendNewCardKey

/-- Reading only part of what is there finds no more than reading all of it. -/
theorem Reader.cleared_of_read {r : Reader} {count : Nat}
    (cleared : ((r.received (r.unread.take count)).consumed count).Cleared) : r.Cleared := by
  have left : r.unread.drop count <:+: r.unread := (List.drop_suffix count _).isInfix
  simp only [Cleared, consumed_stage] at cleared
  simp only [consumed, received_unread] at cleared
  rcases r.received_cases (r.unread.take count) with same | ⟨waits, found, -⟩ | ⟨-, stage⟩ |
    ⟨-, ⟨_, stage⟩ | stage⟩
  · -- Nothing was found, and what is found later is there already.
    rw [same] at cleared
    exact cleared.imp_left fun ⟨stage, found⟩ => ⟨stage, found.trans left⟩
  · exact .inl ⟨waits, Text.infix_of_strstr found (List.take_prefix count _).isInfix⟩
  · rcases stage with stage | stage <;> simp [stage] at cleared
  · simp [stage] at cleared
  · rcases stage with stage | stage <;> simp [stage] at cleared

/-- A free reader is not about to ask about a card. -/
theorem Reader.not_asking_of_free {r : Reader} (free : r.busy = false) : ¬ r.Asking := by
  intro asking
  rcases asking with stage | stage <;> simp [busy, stage] at free

/-- A free reader is not about to send a new key. -/
theorem Reader.not_cleared_of_free {r : Reader} (free : r.busy = false) : ¬ r.Cleared := by
  intro cleared
  rcases cleared with ⟨stage, -⟩ | stage | stage <;> simp [busy, stage] at free

section
variable {ι : Type*} {crypto : Crypto} {s : Sys ι} {i : ι} {act : Act ι} {reader : Reader}
  {answer : Option ServerStep}

/-- A reader about to ask about a card has just read its key, or was about to ask before. -/
theorem Moves.asking (move : Moves crypto s i act reader answer) (asking : reader.Asking) :
    (∃ uid, act = .tap i uid ∧ reader.cardKey = s.card uid ∧ reader.unread = []) ∨
      (s.reader i).Asking ∧ reader.cardKey = (s.reader i).cardKey ∧
        reader.unread = (s.reader i).unread := by
  -- After the card was read nothing but the connection comes before its key is sent.
  cases move with
  | tap uid free => exact .inl ⟨uid, rfl, rfl, rfl⟩
  | connect tls ready => exact .inr ⟨.inl ready, rfl, rfl⟩
  | served env call asks =>
    rcases Reader.request_cases asks with ⟨stage, -⟩ | ⟨stage, -⟩ | ⟨stage, -⟩ <;>
      simp [Reader.Asking, Reader.wrote, stage] at asking
  | lost =>
    unfold Reader.Asking Reader.wrote at *
    split at asking <;> simp_all
  | failed =>
    unfold Reader.Asking Reader.wrote at *
    split at asking <;> simp_all
  | read count ready bounds =>
    unfold Reader.Asking Reader.received Reader.reading at *
    split at ready <;> simp_all
    all_goals split_ifs at asking <;> simp_all
  | readFails =>
    unfold Reader.Asking Reader.readFailed at *
    split at asking <;> simp_all
  | program randomBytes written ready =>
    simp [Reader.Asking, Reader.wroteCard, cardWriteOnBlock] at asking
  | stays act answer seen silent => exact .inr ⟨asking, rfl, rfl⟩

/-- A reader whose card was accepted was told so in this step, or before and serves nothing now. -/
theorem Moves.cleared (move : Moves crypto s i act reader answer)
    (fresh : (s.reader i).Asking → (s.reader i).unread = []) (cleared : reader.Cleared) :
    (s.reader i).Cleared ∧ (∀ fate, act = .write i fate → answer = none) ∨
      ∃ env, act = .write i (.delivered env) ∧ (s.reader i).stage = .sendUidKey ∧
        verdict crypto s.server
            (uidKeyCall env (s.reader i).uid.toList (s.reader i).cardKey.toList) =
          .card (s.reader i).uid.toList := by
  -- An empty connection holds no text of success.
  have long : ¬ okText <:+: [] := by decide
  cases move with
  | tap uid free => simp [Reader.Cleared, Reader.call] at cleared
  | connect tls ready => cases tls <;> simp [Reader.Cleared, Reader.connected] at cleared
  | served env call asks =>
    rcases Reader.request_cases asks with ⟨stage, rfl⟩ | ⟨stage, rfl⟩ | ⟨stage, rfl⟩
    · -- On a new connection only the reply to the card can hold the text of success.
      have found : okText <:+: ((server crypto).answer s.server (uidKeyCall env
          (s.reader i).uid.toList (s.reader i).cardKey.toList)).bytes false env.date := by
        simpa [Reader.Cleared, Reader.wrote, Reader.arrive, stage, fresh (.inr stage), uidKeyCall,
          jsonCall] using cleared
      exact .inr ⟨env, rfl, stage, card_of_found crypto s.server env _ _ found⟩
    · simp [Reader.Cleared, Reader.wrote, stage] at cleared
    · simp [Reader.Cleared, Reader.wrote, stage] at cleared
  | lost =>
    refine .inl ⟨?_, fun _ _ => rfl⟩
    unfold Reader.Cleared Reader.wrote at *
    split at cleared
    · rename_i stage
      simp [fresh (.inr stage), long] at cleared
    all_goals simp_all
  | failed =>
    refine .inl ⟨?_, fun _ _ => rfl⟩
    unfold Reader.Cleared Reader.wrote at *
    split at cleared <;> simp_all
  | read count ready bounds => exact .inl ⟨Reader.cleared_of_read cleared, fun _ _ => rfl⟩
  | readFails =>
    refine .inl ⟨?_, fun _ _ => rfl⟩
    unfold Reader.Cleared Reader.readFailed at *
    split at cleared <;> simp_all
  | program randomBytes written ready => exact .inl ⟨.inr (.inl ready), fun _ _ => rfl⟩
  | stays act answer seen silent => exact .inl ⟨cleared, silent⟩

end

/-- A presented key is accepted exactly when the card's row holds it. -/
theorem accepted_uidKeyCall (crypto : Crypto) (s : Server) {env : Env} {uid key : Bytes}
    (steady : env.scanFails = false) (enrolled : (selectCard s.cards uid).isSome = true) :
    Accepted crypto uid ((server crypto).entry s (uidKeyCall env uid key)) ↔
      ∃ row, selectCard s.cards uid = some row ∧ key = row.keyThisTime := by
  -- A card that has a row is not enrolled again.
  have known : ∀ pair, presents (uidKeyCall env uid key) = some pair →
      (selectCard s.cards pair.1).isSome = true := by
    intro pair presented
    rw [presents_uidKeyCall] at presented
    rw [← Option.some.inj presented]
    exact enrolled
  rw [accepted_iff crypto s (presents_uidKeyCall env uid key) steady,
    select_untouched crypto s (newKey_uidKeyCall env uid key) known]

/-- The card has a row, and a session is one of this card, begun on a new connection. -/
structure OneSession (uid : Uid) (s : Sys Unit) : Prop where
  enrolled : (selectCard s.server.cards uid.toList).isSome = true
  own : (s.reader ()).busy = true → (s.reader ()).uid = uid
  fresh : (s.reader ()).Asking → (s.reader ()).unread = []

/-- The card's key is stored, or sent next to a server that will store it. -/
structure InStep (uid : Uid) (s : Sys Unit) : Prop extends OneSession uid s where
  stored : KeyStored s uid
  written : SendsWritten s
  permitted : (s.reader ()).Cleared → s.server.checker = true

/-- The card's key is not the stored one, and nothing is under way that would store it. -/
structure OutOfStep (uid : Uid) (s : Sys Unit) : Prop extends OneSession uid s where
  differs : ∀ row ∈ selectCard s.server.cards uid.toList, row.keyThisTime ≠ (s.card uid).toList
  asks : (s.reader ()).Asking → (s.reader ()).cardKey = s.card uid
  refused : ¬ (s.reader ()).Cleared

section
variable {crypto : Crypto} {uid : Uid} {s : Sys Unit} {act : Act Unit}

/-- Between two sessions card and table are in step when the row holds the key on the card. -/
theorem inStep_free {row : Card} (free : (s.reader ()).busy = false)
    (found : selectCard s.server.cards uid.toList = some row)
    (same : row.keyThisTime = (s.card uid).toList) : InStep uid s where
  enrolled := by
    rw [found]
    rfl
  own busy := absurd busy (by simp [free])
  fresh asking := absurd asking (Reader.not_asking_of_free free)
  stored row' found' := by
    obtain rfl := Option.mem_unique found found'
    exact .inl same
  written _ sends := absurd (.inr (.inr sends)) (Reader.not_cleared_of_free free)
  permitted cleared := absurd cleared (Reader.not_cleared_of_free free)

/-- Every step leaves the card its row and the session its card. -/
theorem OneSession.next (one : OneSession uid s) (setting : OneCard uid s act) :
    OneSession uid ((system Unit crypto).next s act) where
  enrolled := select_isSome_next one.enrolled
  own busy := by
    -- A session begins with the one card and keeps it.
    rcases (moves crypto s act ()).busy busy with ⟨taps, -⟩ | ⟨before, kept⟩
    · rw [taps] at setting
      exact setting
    · exact kept.trans (one.own before)
  fresh asking := by
    rcases (moves crypto s act ()).asking asking with ⟨_, -, -, unread⟩ | ⟨before, -, unread⟩
    · exact unread
    · exact unread.trans (one.fresh before)

/-- With one card and a database that works every step is an ordinary one. -/
theorem OneSession.ordinary (one : OneSession uid s) (setting : OneCard uid s act) :
    Ordinary s act where
  logins call request := by
    subst request
    exact setting
  enrolled i _ _ stage := by
    rw [one.own (by simp [Reader.busy, stage])]
    exact one.enrolled
  works i env writes := by
    subst writes
    exact setting.1

/-- Once the card was accepted the flag for cards stays set until the new key is sent. -/
theorem InStep.permitted_next (inStep : InStep uid s) (setting : OneCard uid s act)
    (cleared : (((system Unit crypto).next s act).reader ()).Cleared) :
    ((system Unit crypto).next s act).server.checker = true := by
  rcases (moves crypto s act ()).cleared inStep.fresh cleared with
    ⟨before, silent⟩ | ⟨env, rfl, stage, accepted⟩
  · -- The reader sends nothing, and a login leaves the flag alone.
    rcases server_cases crypto s act with ⟨-, same⟩ | ⟨call, answer, served, rfl | ⟨_, _, rfl, -⟩⟩
    · rw [same]
      exact inStep.permitted before
    · rw [served, checker_password crypto s.server setting]
      exact inStep.permitted before
    · rw [silent _ rfl] at answer
      exact absurd answer (by simp)
  · rcases server_cases crypto s (.write () (.delivered env)) with ⟨silent, -⟩ |
      ⟨call, -, served, request | ⟨_, _, writes, asks⟩⟩
    · -- The request is served, so there is an answer.
      simp [Machine.answer, system, step, Reader.request, stage] at silent
    · exact absurd request (by simp)
    · obtain ⟨rfl, same⟩ := Act.write.inj writes
      obtain rfl := Fate.delivered.inj same
      obtain rfl : call = uidKeyCall env _ _ := by
        simpa [Reader.request, stage, eq_comm] using asks
      rw [served]
      exact checker_accepted crypto s.server _ accepted

/-- A step in which no new key is lost keeps card and table in step. -/
theorem InStep.next (inStep : InStep uid s) (setting : OneCard uid s act)
    (arrives : NewKeyArrives s act) : InStep uid ((system Unit crypto).next s act) where
  toOneSession := inStep.toOneSession.next setting
  -- The flag is set whenever the new key is about to be sent.
  stored :=
    inStep.stored.next inStep.written (inStep.ordinary setting) fun i fate writes sends => by
    subst writes
    exact (arrives sends).imp_left fun delivered =>
      ⟨delivered, inStep.permitted (.inr (.inr sends))⟩
  written := inStep.written.next (fun _ _ _ _ _ => rfl) fun _ _ _ program => by
    subst program
    exact setting
  permitted := inStep.permitted_next setting

/-- A new key that is lost leaves the card with a key that nothing will store. -/
theorem InStep.lost (inStep : InStep uid s) (setting : OneCard uid s act)
    (lost : ¬ NewKeyArrives s act) : OutOfStep uid ((system Unit crypto).next s act) := by
  cases act with
  | write i fate =>
    simp only [NewKeyArrives, Classical.not_imp, not_or] at lost
    obtain ⟨sends, missing, other⟩ := lost
    have held := inStep.own (by simp [Reader.busy, sends])
    have written := inStep.written () sends
    -- Neither the table nor the card changes, and the reader goes on without the server.
    have server : ((system Unit crypto).next s (.write i fate)).server = s.server := by
      cases fate with
      | delivered env => exact absurd trivial missing
      | lost | failed => rfl
    have card : ((system Unit crypto).next s (.write i fate)).card = s.card := by
      cases fate with
      | delivered env => exact absurd trivial missing
      | lost | failed => rfl
    have reader : ∃ ret, ((system Unit crypto).next s (.write i fate)).reader () =
        (s.reader ()).wrote ret := by
      cases fate with
      | delivered env => exact absurd trivial missing
      | lost => exact ⟨true, Sys.setReader_same ..⟩
      | failed => exact ⟨false, Sys.setReader_same ..⟩
    obtain ⟨ret, reader⟩ := reader
    refine ⟨inStep.toOneSession.next setting, ?_, ?_, ?_⟩
    · rw [server, card]
      intro row found same
      -- The row found is the one that holds another key than the reader sends.
      refine other fun row' found' => ?_
      rw [held] at found' written
      obtain rfl := Option.mem_unique found found'
      rw [same, written]
    · rw [reader]
      cases ret <;> simp [Reader.Asking, Reader.wrote, sends]
    · rw [reader]
      cases ret <;> simp [Reader.Cleared, Reader.wrote, sends]
  | request _ | tap _ _ | connect _ _ | read _ _ | readFails _ | program _ _ _ =>
    exact absurd trivial lost

/-- A card whose key is not the stored one is not accepted. -/
theorem OutOfStep.refused_next (out : OutOfStep uid s) (setting : OneCard uid s act) :
    ¬ (((system Unit crypto).next s act).reader ()).Cleared := by
  intro cleared
  rcases (moves crypto s act ()).cleared out.fresh cleared with
    ⟨before, -⟩ | ⟨env, rfl, stage, accepted⟩
  · -- The reader was not told before.
    exact out.refused before
  · have held := out.own (by simp [Reader.busy, stage])
    -- The key that was sent is the one on the card, which is not the stored one.
    rw [held, out.asks (.inr stage)] at accepted
    obtain ⟨row, found, same⟩ :=
      (accepted_uidKeyCall crypto s.server setting.2 out.enrolled).mp accepted
    exact out.differs row found same.symm

/-- No step puts a card and a table that are out of step together again. -/
theorem OutOfStep.next (out : OutOfStep uid s) (setting : OneCard uid s act) :
    OutOfStep uid ((system Unit crypto).next s act) := by
  -- Nothing is written to the card, because the card is not accepted.
  have unwritten : ((system Unit crypto).next s act).card = s.card := by
    rcases card_cases crypto s act with same | ⟨_, _, -, ready, -⟩
    · exact same
    · exact absurd (.inr (.inl ready)) out.refused
  have untouched : selectCard ((system Unit crypto).next s act).server.cards uid.toList =
      selectCard s.server.cards uid.toList :=
    select_next (out.ordinary setting) (fun _ _ _ sends => out.refused (.inr (.inr sends))) _
  refine ⟨out.toOneSession.next setting, ?_, ?_, out.refused_next setting⟩
  · rw [untouched, unwritten]
    exact out.differs
  · intro asking
    rw [unwritten]
    rcases (moves crypto s act ()).asking asking with ⟨u, taps, key, -⟩ | ⟨before, key, -⟩
    · rw [taps] at setting
      obtain rfl : u = uid := setting
      exact key
    · exact key.trans (out.asks before)

/-- The next request for a free reader's card carries the key on the card. -/
theorem answer_nextTap (free : (s.reader ()).busy = false) (env : Env) :
    (system Unit crypto).answer
        ((system Unit crypto).after s [.tap () uid, .connect () true])
          (.write () (.delivered env)) =
      some ((server crypto).entry s.server (uidKeyCall env uid.toList (s.card uid).toList)) := by
  -- The three steps are those of a session until its first request.
  simp [Machine.answer, Machine.next, system, step, free, Reader.call, Reader.connected,
    Reader.request]

/-- The next tap of an enrolled card is accepted when the stored key is the one on the card. -/
theorem nextTapAccepted_iff (free : (s.reader ()).busy = false)
    (enrolled : (selectCard s.server.cards uid.toList).isSome = true) :
    NextTapAccepted crypto uid s ↔
      ∃ row, selectCard s.server.cards uid.toList = some row ∧
        (s.card uid).toList = row.keyThisTime := by
  -- The request presents the key on the card.
  simp only [NextTapAccepted, answer_nextTap free, Option.mem_some_iff, exists_eq_left']
  constructor
  · intro accepted
    exact (accepted_uidKeyCall crypto s.server rfl enrolled).mp (accepted quietEnv rfl)
  · exact fun same env steady => (accepted_uidKeyCall crypto s.server steady enrolled).mpr same

end

section
variable (crypto : Crypto) (uid : Uid)

/--
After a run in which the connection may fail at any point, the card is accepted the next time,
exactly when no request with its new key was lost.

The card holds the new key before the server is told, and the server compares with the new one only.
-/
theorem recovers_iff {s : Sys Unit} {row : Card} (run : List (Act Unit))
    (free : (s.reader ()).busy = false)
    (found : selectCard s.server.cards uid.toList = some row)
    (fresh : row.keyThisTime = (s.card uid).toList)
    (setting : (system Unit crypto).Along (OneCard uid) s run)
    (ended : (((system Unit crypto).after s run).reader ()).busy = false) :
    NextTapAccepted crypto uid ((system Unit crypto).after s run) ↔
      (system Unit crypto).Along NewKeyArrives s run := by
  have start := inStep_free free found fresh
  -- The first key that is lost decides about all that follows.
  rcases (system Unit crypto).sound_or_broken (fun _ _ => InStep.next) (fun _ _ => InStep.lost)
    (fun _ _ => OutOfStep.next) start setting with ⟨arrives, inStep⟩ | ⟨lost, out⟩
  · -- The key on the card is stored, as no reader is about to send it.
    refine iff_of_true ((nextTapAccepted_iff ended inStep.enrolled).mpr ?_) arrives
    obtain ⟨last, stored⟩ := Option.isSome_iff_exists.mp inStep.enrolled
    refine ⟨last, stored, ((inStep.stored last stored).resolve_right ?_).symm⟩
    intro sending
    obtain ⟨_, sends, -⟩ := sending
    exact Reader.not_cleared_of_free ended (.inr (.inr sends))
  · -- Once a key was lost the row and the card differ for good.
    refine iff_of_false (fun accepted => ?_) lost
    obtain ⟨last, stored, same⟩ := (nextTapAccepted_iff ended out.enrolled).mp accepted
    exact out.differs last stored same.symm

/-- After Bob's visit his card is accepted again. -/
theorem recovers_bob :
    NextTapAccepted Crypto.standard bobUid
      ((system Unit Crypto.standard).after (Sys.start twoCards firstKey) bobVisit) :=
  (recovers_iff Crypto.standard bobUid bobVisit rfl
    (by decide +kernel : selectCard twoCards bobUid.toList = some (enrolledCard bob bobKey)) rfl
    (by decide +kernel) (by decide +kernel)).mpr (by decide +kernel)

/-- Bob's card is written, and the connection fails before the server is told. -/
def brokenVisit : List (Act Unit) :=
  [.tap () bobUid, .connect () true, .write () (.delivered quietEnv), .read () 109,
    .program () (firstKey aliceUid) true, .write () .failed]

/-- A card whose new key was not sent is rejected. -/
theorem not_recovered :
    ¬ ∀ (uid : Uid) (cards : Cards) (card : Uid → CardKey) (row : Card) (run : List (Act Unit)),
      selectCard cards uid.toList = some row → row.keyThisTime = (card uid).toList →
      (system Unit Crypto.standard).Along (OneCard uid) (Sys.start cards card) run →
      (((system Unit Crypto.standard).after (Sys.start cards card) run).reader ()).busy = false →
      NextTapAccepted Crypto.standard uid
        ((system Unit Crypto.standard).after (Sys.start cards card) run) := by
  intro recovers
  have accepted := recovers bobUid twoCards firstKey (enrolledCard bob bobKey) brokenVisit
    (by decide +kernel) rfl (by decide +kernel) (by decide +kernel) quietEnv rfl
  -- The row still holds the key that was on the card before.
  exact absurd accepted (by decide +kernel)

end

end Rfid
