import RfidEncryption.Server.Clients
import RfidEncryption.Gate.Policy

/-! Whether earlier visitors can be noticed by the next one. -/

namespace Rfid

open Reactive

/-- Two servers with the same table, in the same phase of testing. -/
structure SameStore (s t : Server) : Prop where
  cards : s.cards = t.cards
  testOnce : s.testOnce = t.testOnce

section
variable (crypto : Crypto) (env : Env) (w : ResponseWriter) (req : Request) {s t : Server}

/-- Registering a card for testing keeps two stores the same. -/
theorem testRegister_store (same : SameStore s t) :
    SameStore (testRegister crypto env s req) (testRegister crypto env t req) := by
  -- What is registered depends on the request and on the clock, not on the flags.
  unfold testRegister
  rw [same.cards, same.testOnce]
  split
  · exact ⟨rfl, rfl⟩
  · exact same

/-- Whether a login passes depends on the table only. -/
theorem passwordPasses_store (same : SameStore s t) :
    passwordPasses crypto env s req = passwordPasses crypto env t req := by
  rw [passwordPasses, passwordPasses, same.cards]

/-- Whether a card's key matches depends on the store only. -/
theorem uidKeyMatches_store (same : SameStore s t) :
    uidKeyMatches crypto env s req = uidKeyMatches crypto env t req := by
  rw [uidKeyMatches, uidKeyMatches, (testRegister_store crypto env req same).cards]

/-- What a JSON request is told, and when the flag for cards matters. -/
theorem handleJSON_store {body : Option Request} (uid : Bytes) (same : SameStore s t)
    (checker : s.checker = t.checker ∨ ∀ req ∈ body, req.type ≠ "New_Card_Key") :
    (handleJSON crypto env s w body uid).2 = (handleJSON crypto env t w body uid).2 := by
  cases body with
  | none => rfl
  | some req =>
    -- Each handler writes what the table decides.
    simp only [handleJSON]
    split_ifs with password uidKey newCardKey
    · rw [handlePassword_writer, handlePassword_writer, same.cards]
    · rw [handleUidKey_writer, handleUidKey_writer, uidKeyMatches_store crypto env req same]
    · -- Only here the flag for cards decides what is written.
      rw [handleNewCardKey_writer, handleNewCardKey_writer, same.cards,
        checker.resolve_right fun none => none req rfl newCardKey]
    · rfl

/-- A JSON request leaves two stores the same, if the flag for cards agrees where it matters. -/
theorem jsonNext_store (same : SameStore s t)
    (checker : s.checker = t.checker ∨ req.type ≠ "New_Card_Key") :
    SameStore (jsonNext crypto env s req) (jsonNext crypto env t req) := by
  have registered := testRegister_store crypto env req same
  unfold jsonNext
  rw [passwordPasses_store crypto env req same, uidKeyMatches_store crypto env req same]
  by_cases newCardKey : req.type = "New_Card_Key"
  · -- A new key is stored under the flag, which agrees here.
    have agrees := checker.resolve_right fun other => other newCardKey
    simp only [newCardKey, agrees, same.cards]
    exact ⟨rfl, same.testOnce⟩
  · -- No other request looks at the flags before it writes the table.
    rw [if_neg newCardKey, if_neg newCardKey]
    split_ifs
    · exact ⟨same.cards, same.testOnce⟩
    · exact ⟨same.cards, same.testOnce⟩
    · exact ⟨registered.cards, registered.testOnce⟩
    · exact registered
    · exact same

end

section
variable (crypto : Crypto) {s t : Server} (call : Call)

/-- What the handlers decide depends on the store only. -/
theorem verdict_store (same : SameStore s t) : verdict crypto s call = verdict crypto t call := by
  -- Both checks read the table only.
  unfold verdict
  cases call.json with
  | none => rfl
  | some req =>
    simp only [passwordPasses_store crypto call.env req same,
      uidKeyMatches_store crypto call.env req same]

/-- Everything but a call for the door is answered from the store and the flag for cards. -/
theorem answer_store (same : SameStore s t) (unasked : ¬ call.IsOpen)
    (checker : s.checker = t.checker ∨ ∀ req ∈ call.request.body, req.type ≠ "New_Card_Key") :
    (server crypto).answer s call = (server crypto).answer t call := by
  -- Both paths that take JSON answer from the store.
  have path : call.request.path ≠ "/OPEN" := unasked
  have input := handleJSON_store crypto call.env {} call.request.queryUID same checker
  have json := handleJSON_store crypto call.env {} [] same checker
  simp only [Machine.answer, server, serve, pathHandler, path, if_false]
  split_ifs <;> simp [input, json]

/-- Everything leaves two stores the same, if the flag for cards agrees where it matters. -/
theorem next_store (same : SameStore s t)
    (checker : s.checker = t.checker ∨ ∀ req ∈ call.json, req.type ≠ "New_Card_Key") :
    SameStore ((server crypto).next s call) ((server crypto).next t call) := by
  rw [serve_state, serve_state]
  split_ifs with asked
  · -- A call for the door does not touch the store.
    have untouched : ∀ s : Server, SameStore s (handleOpen s {}).1 := by
      intro s
      unfold handleOpen
      split_ifs <;> exact ⟨rfl, rfl⟩
    -- Two tables that were the same stay so on either side.
    have left := untouched s
    have right := untouched t
    exact ⟨left.cards.symm.trans (same.cards.trans right.cards),
      left.testOnce.symm.trans (same.testOnce.trans right.testOnce)⟩
  · cases carried : call.json with
    | none => exact same
    | some req =>
      exact jsonNext_store crypto call.env req same
        (checker.imp id fun other => other req (by rw [carried]; rfl))

/-- Two servers no visitor can tell apart. -/
structure Alike (s t : Server) : Prop extends SameStore s t where
  gate : Latch.Alike s.gate t.gate

/-- Servers that are alike answer every request alike. -/
theorem Alike.answer (alike : Alike s t) :
    (server crypto).answer s call = (server crypto).answer t call := by
  by_cases asked : call.IsOpen
  · -- The whole reply to a call for the door follows from what the latch answers.
    have told := alike.gate.answer (Latch.Event.poll (U := Bytes))
    have path : call.request.path = "/OPEN" := asked
    have left := serve_open crypto s call asked
    have right := serve_open crypto t call asked
    rw [left, right, told]
  · exact answer_store crypto call alike.toSameStore asked (.inl alike.gate.checker)

/-- Servers that are alike stay alike. -/
theorem Alike.next (alike : Alike s t) :
    Alike ((server crypto).next s call) ((server crypto).next t call) where
  toSameStore := next_store crypto call alike.toSameStore (.inl alike.gate.checker)
  gate := by
    -- The latch sees the same event in both.
    rw [serve_gate, serve_gate, verdict_store crypto call alike.toSameStore]
    exact alike.gate.next _

end

/-- A server whose process has just started. -/
def Server.IsStart (s : Server) : Prop := ∃ cards, s = Server.start cards

section
variable (crypto : Crypto)

/-- A process that has registered its first card has a row. -/
def Registered (s : Server) : Prop := s.testOnce = false → s.cards ≠ []

/-- Registering the first card inserts a row. -/
theorem Registered.testRegister {s : Server} (held : Registered s) (env : Env) (req : Request) :
    Registered (testRegister crypto env s req) := by
  -- The new row stands at the end of the table.
  unfold Rfid.testRegister
  split
  · intro _
    simp [databaseRegister]
  · exact held

/-- A row is never removed. -/
theorem Registered.next {s : Server} (held : Registered s) (call : Call) :
    Registered ((server crypto).next s call) := by
  -- Of all the branches only the registration changes how many rows there are.
  rw [serve_state]
  split_ifs with asked
  · unfold handleOpen
    split_ifs <;> exact held
  · cases call.json with
    | none => exact held
    | some req =>
      have registered := held.testRegister crypto call.env req
      simp only [Option.elim_some, jsonNext]
      split_ifs
      · exact held
      · exact held
      · exact registered
      · exact registered
      · -- Updating keys maps the rows one by one.
        intro done
        unfold databaseUpdater
        split_ifs <;> simpa using held done
      · exact held
      · exact held

/-- A process that has registered its first card has a row in every state it reaches. -/
theorem cards_ne_nil {s : Server} (reached : (server crypto).Reachable Server.IsStart s)
    (registered : s.testOnce = false) : s.cards ≠ [] := by
  -- No process has registered a card when it starts.
  refine reached.invariant (I := Registered) (m := server crypto) ?_ ?_ registered
  · intro s start started
    obtain ⟨cards, rfl⟩ := start
    exact absurd started (by simp [Server.start])
  · intro s call held
    exact held.next crypto call

/-- Some card is recognised in every state a process can reach. -/
theorem exists_card {s : Server} (reached : (server crypto).Reachable Server.IsStart s) :
    ∃ call uid, verdict crypto s call = .card uid := by
  cases listed : s.cards with
  | nil =>
    -- Before the first registration any card will do.
    have first : s.testOnce = true := by
      by_contra done
      exact cards_ne_nil crypto reached (by simpa using done) listed
    exact ⟨_, _, verdict_first crypto s quietEnv [] [] first rfl (by simp [listed, selectCard])⟩
  -- The first row of the table is the earliest of its card.
  | cons card cards =>
    have found : selectCard s.cards card.uid = some card := by simp [listed, selectCard]
    refine ⟨uidKeyCall quietEnv card.uid card.keyThisTime, card.uid, ?_⟩
    cases phase : s.testOnce with
    | false => exact verdict_enrolled crypto s quietEnv card.uid phase rfl found
    | true =>
      refine verdict_first crypto s quietEnv card.uid _ phase rfl fun other selected => ?_
      rw [found] at selected
      rw [Option.some.inj selected]

/-- Servers after which every session begins alike agree on what their pasts left behind. -/
theorem agree_of_isolated {s t : Server} (reached : (server crypto).Reachable Server.IsStart s)
    (same : SameStore s t)
    (isolated : ∀ call rest, (∃ uid, verdict crypto s call = .card uid) →
      (∃ uid, verdict crypto t call = .card uid) →
        (server crypto).answers s (call :: rest) = (server crypto).answers t (call :: rest)) :
    s.passing = t.passing ∧ (s.passing = false → min s.attemptTime 2 = min t.attemptTime 2) := by
  -- A card that one server accepts is accepted by the other.
  obtain ⟨call, uid, card⟩ := exists_card crypto reached
  have card' : verdict crypto t call = .card uid := verdict_store crypto call same ▸ card
  have gate := serve_gate crypto s call
  have gate' := serve_gate crypto t call
  rw [card, Latch.next_card] at gate
  rw [card', Latch.next_card] at gate'
  -- The door is polled at once, and polled after a failed login.
  have now := isolated call [openCall quietEnv] ⟨uid, card⟩ ⟨uid, card'⟩
  have later := isolated call [failedLoginCall [], openCall quietEnv] ⟨uid, card⟩ ⟨uid, card'⟩
  -- The two answers are those of the latch.
  simp only [Machine.answers, List.cons.injEq, and_true] at now later
  have polled := congrArg (gateReply (openCall quietEnv)) now.2
  have repolled := congrArg (gateReply (openCall quietEnv)) later.2.2
  rw [serve_gateReply, serve_gateReply, verdict_openCall, verdict_openCall] at polled repolled
  rw [failedLoginCall, serve_gate, verdict_no_totp, serve_gate _ ((server crypto).next t call),
    verdict_no_totp] at repolled
  rw [gate, gate'] at polled repolled
  exact Latch.told_apart rfl rfl polled repolled

/-- A session begins alike at servers that agree on what their pasts left behind. -/
theorem isolated_of_agree {s t : Server} (same : SameStore s t) (passing : s.passing = t.passing)
    (attempts : s.passing = false → min s.attemptTime 2 = min t.attemptTime 2) (call : Call)
    (rest : List Call) (begins : ∃ uid, verdict crypto s call = .card uid) :
    (server crypto).answers s (call :: rest) = (server crypto).answers t (call :: rest) := by
  obtain ⟨uid, card⟩ := begins
  have card' : verdict crypto t call = .card uid := verdict_store crypto call same ▸ card
  -- The card is presented in a request that does not look at the flags.
  obtain ⟨unasked, req, carried, uidKey, -⟩ := verdict_card crypto s call card
  have other : ∀ req ∈ call.request.body, req.type ≠ "New_Card_Key" := by
    rw [Call.json_body carried]
    rintro _ ⟨⟩
    simp [uidKey]
  have other' : ∀ req ∈ call.json, req.type ≠ "New_Card_Key" := by
    rw [carried, ← Call.json_body carried]
    exact other
  -- From the accepted card on the two servers cannot be told apart.
  have alike : Alike ((server crypto).next s call) ((server crypto).next t call) := by
    refine ⟨next_store crypto call same (.inr other'), ?_⟩
    rw [serve_gate, serve_gate, card, card', Latch.next_card, Latch.next_card]
    refine ⟨rfl, passing, ?_⟩
    -- A login that is left over makes the counter irrelevant.
    cases pending : s.passing with
    | true => exact .inl ⟨pending, rfl⟩
    | false => exact .inr (attempts pending)
  simp only [Machine.answers]
  rw [answer_store crypto call same unasked (.inr other),
    (server crypto).answers_eq_of_related (fun s t call alike => alike.answer crypto call)
      (fun s t call alike => alike.next crypto call) alike rest]

/--
A session begins alike after two pasts exactly when they left the same login pending and, without
one, the same number of failures below two.

The card clears neither `passing` nor `attempt_time`.
-/
theorem session_isolated_iff (s t : Server)
    (reached : (server crypto).Reachable Server.IsStart s)
    (_ : (server crypto).Reachable Server.IsStart t) (same : SameStore s t) :
    (∀ call rest, (∃ uid, verdict crypto s call = .card uid) →
      (∃ uid, verdict crypto t call = .card uid) →
        (server crypto).answers s (call :: rest) = (server crypto).answers t (call :: rest)) ↔
      s.passing = t.passing ∧ (s.passing = false → min s.attemptTime 2 = min t.attemptTime 2) := by
  constructor
  · exact agree_of_isolated crypto reached same
  · intro agree call rest begins _
    exact isolated_of_agree crypto same agree.1 agree.2 call rest begins

end

/-- The state Bob's card leaves behind. -/
def afterBob : Server :=
  (server Crypto.standard).after (Server.start twoCards) [uidKeyCall quietEnv bob bobKey]

/-- The state Bob's card leaves behind when Alice logs in and goes away. -/
def afterBobAndAlice : Server :=
  (server Crypto.standard).after (Server.start twoCards)
    [uidKeyCall quietEnv bob bobKey, loginCall alice]

/-- The state Bob leaves behind when he opens the door. -/
def afterVisit : Server :=
  (server Crypto.standard).after (Server.start twoCards)
    [uidKeyCall quietEnv bob bobKey, loginCall bob, openCall quietEnv]

/-- Bob's visit, finished or not, is not noticed when a card is presented next. -/
theorem session_isolated_visit :
    (server Crypto.standard).answers afterBob
        [uidKeyCall quietEnv bob bobKey, openCall quietEnv] =
      (server Crypto.standard).answers afterVisit
        [uidKeyCall quietEnv bob bobKey, openCall quietEnv] := by
  -- Both pasts leave the same table and the same flags, and the card is accepted after each.
  have alike : (afterBob.cards = afterVisit.cards ∧ afterBob.testOnce = afterVisit.testOnce) ∧
      (afterBob.passing = afterVisit.passing ∧
        (afterBob.passing = false → min afterBob.attemptTime 2 = min afterVisit.attemptTime 2)) ∧
      verdict Crypto.standard afterBob (uidKeyCall quietEnv bob bobKey) = .card bob ∧
        verdict Crypto.standard afterVisit (uidKeyCall quietEnv bob bobKey) = .card bob := by
    decide +kernel
  obtain ⟨⟨cards, testOnce⟩, flags, card, card'⟩ := alike
  exact (session_isolated_iff Crypto.standard afterBob afterVisit ⟨_, _, ⟨twoCards, rfl⟩, rfl⟩
    ⟨_, _, ⟨twoCards, rfl⟩, rfl⟩ ⟨cards, testOnce⟩).mpr flags (uidKeyCall quietEnv bob bobKey)
    [openCall quietEnv] ⟨bob, card⟩ ⟨bob, card'⟩

/-- Alice's login opens the door for the next visitor's card alone. -/
theorem session_not_isolated :
    ¬ ∀ s t : Server, (server Crypto.standard).Reachable Server.IsStart s →
      (server Crypto.standard).Reachable Server.IsStart t → SameStore s t →
        ∀ call rest, (∃ uid, verdict Crypto.standard s call = .card uid) →
          (∃ uid, verdict Crypto.standard t call = .card uid) →
            (server Crypto.standard).answers s (call :: rest) =
              (server Crypto.standard).answers t (call :: rest) := by
  intro isolated
  -- The second answer is 401 after one past and 200 after the other.
  have differ : (afterBob.cards = afterBobAndAlice.cards ∧
        afterBob.testOnce = afterBobAndAlice.testOnce) ∧
      (verdict Crypto.standard afterBob (uidKeyCall quietEnv bob bobKey) = .card bob ∧
        verdict Crypto.standard afterBobAndAlice (uidKeyCall quietEnv bob bobKey) = .card bob) ∧
      (server Crypto.standard).answers afterBob
          [uidKeyCall quietEnv bob bobKey, openCall quietEnv] ≠
        (server Crypto.standard).answers afterBobAndAlice
          [uidKeyCall quietEnv bob bobKey, openCall quietEnv] := by decide +kernel
  obtain ⟨⟨cards, testOnce⟩, ⟨card, card'⟩, answers⟩ := differ
  exact answers (isolated afterBob afterBobAndAlice ⟨_, _, ⟨twoCards, rfl⟩, rfl⟩
    ⟨_, _, ⟨twoCards, rfl⟩, rfl⟩ ⟨cards, testOnce⟩ (uidKeyCall quietEnv bob bobKey)
    [openCall quietEnv] ⟨bob, card⟩ ⟨bob, card'⟩)

end Rfid
