import RfidEncryption.Server.OpenHistory

/-! What requests do to the rows of the table, and which of them are allowed to. -/

namespace Rfid

open Reactive

section
variable (crypto : Crypto) (s : Server) (call : Call)

/-- The card and the key a `UID_KEY` request presents. -/
def presents : Option (Bytes × Bytes) :=
  call.json.bind fun req =>
    if req.type = "UID_KEY" then some (hexBytes req.uid, hexBytes req.otAK) else none

/-- The row the first card presented to a process is enrolled with. -/
def enrolment : Option Card :=
  (presents call).map fun (uid, key) =>
    ⟨uid, hashOf crypto (utf8 "@Testing_password"), key, key, call.env.readBack call.env.secret⟩

/-- The row a request enrols, which only the first `UID_KEY` request of a process does. -/
def enrols : Option Card := if s.testOnce = true then enrolment crypto call else none

/-- The card a request names to install a new key, and the key. -/
def newKey : Option (Bytes × Bytes) :=
  call.json.bind fun req =>
    if req.type = "New_Card_Key" then some (hexBytes req.uid, hexBytes req.newOtAK) else none

/-- The card whose key a request replaces, and the key, if the server lets it. -/
def installs : Option (Bytes × Bytes) :=
  if s.checker = true ∧ call.env.execFails = false then newKey call else none

/-- The rows after a key was installed for a card. -/
def install (cards : Cards) (uid key : Bytes) : Cards :=
  cards.map fun card => if card.uid = uid then card.rotate key else card

/-- A request enrols a row, installs a key, or leaves the table alone. -/
theorem serve_cards :
    ((server crypto).next s call).cards =
      match enrols crypto s call, installs s call with
      | some row, _ => s.cards ++ [row]
      | none, some (uid, key) => install s.cards uid key
      | none, none => s.cards := by
  rw [serve_state]
  unfold enrols enrolment presents installs newKey
  by_cases asked : call.IsOpen
  · -- A call for the door carries no JSON request.
    rw [if_pos asked, asked.json]
    unfold handleOpen
    split_ifs <;> simp
  · rw [if_neg asked]
    -- The branches of the JSON handler touch the table one by one.
    cases call.json with
    | none => simp
    | some req =>
      simp only [Option.elim_some, Option.bind_some, jsonNext]
      by_cases password : req.type = "Password"
      · simp only [password]
        split_ifs <;> simp_all
      · by_cases uidKey : req.type = "UID_KEY"
        · simp only [uidKey, testRegister, testing, Bool.true_and, databaseRegister]
          split_ifs <;> simp_all
        · by_cases newCardKey : req.type = "New_Card_Key"
          · simp only [newCardKey, databaseUpdater, install]
            split_ifs <;> simp_all
          · simp [password, uidKey, newCardKey]

/-- A request that presents a card names no new key. -/
theorem newKey_of_presents {pair : Bytes × Bytes} (presented : presents call = some pair) :
    newKey call = none := by
  -- A request has one type.
  obtain ⟨req, carried, uidKey⟩ := Option.bind_eq_some_iff.mp presented
  simp only [ite_eq_iff, reduceCtorEq, and_false, or_false] at uidKey
  simp [newKey, carried, uidKey.1]

/-- A request that enrols a row installs no key. -/
theorem installs_of_enrols {row : Card} (enrolled : enrols crypto s call = some row) :
    installs s call = none := by
  -- One request has one type.
  unfold enrols enrolment at enrolled
  unfold installs
  cases presented : presents call with
  | none => simp [presented] at enrolled
  | some pair => simp [newKey_of_presents call presented]

/-- A row is enrolled while testing, from the card that is presented. -/
theorem enrols_some {row : Card} (enrolled : enrols crypto s call = some row) :
    s.testOnce = true ∧ enrolment crypto call = some row := by
  -- Nothing is enrolled unless the process is still testing.
  unfold enrols at enrolled
  split_ifs at enrolled with first
  exact ⟨first, enrolled⟩

/-- While testing, a request that enrols no row presents no card. -/
theorem enrolment_of_enrols (nothing : enrols crypto s call = none) (first : s.testOnce = true) :
    enrolment crypto call = none := by
  simpa [enrols, first] using nothing

/-- The flag for testing falls with the first card presented. -/
theorem serve_testOnce :
    ((server crypto).next s call).testOnce = (s.testOnce && (enrolment crypto call).isNone) := by
  -- The flag is touched where the first card is registered, and nowhere else.
  rw [serve_state]
  unfold enrolment presents
  by_cases asked : call.IsOpen
  · rw [if_pos asked, asked.json]
    unfold handleOpen
    split_ifs <;> simp
  · rw [if_neg asked]
    cases call.json with
    | none => simp
    | some req =>
      simp only [Option.elim_some, Option.bind_some, jsonNext]
      by_cases uidKey : req.type = "UID_KEY"
      · simp only [uidKey, testRegister, testing, Bool.true_and]
        split_ifs <;> simp_all
      · split_ifs <;> simp_all

/-- The flag for cards is raised by nothing but a presented card. -/
theorem serve_checker (raised : ((server crypto).next s call).checker = true) :
    s.checker = true ∨ (enrolment crypto call).isSome = true := by
  -- The flag is that of the latch, which only a card raises.
  have gate := congrArg Latch.State.checker (serve_gate crypto s call)
  rw [gate_checker, raised] at gate
  cases decided : verdict crypto s call with
  | card uid =>
    obtain ⟨-, req, carried, uidKey, -⟩ := verdict_card crypto s call decided
    exact .inr (by simp [enrolment, presents, carried, uidKey])
  | poll =>
    rw [decided] at gate
    rcases Latch.poll_cases (U := Bytes) s.gate with ⟨-, -, next, -⟩ | ⟨-, -, next, -⟩ |
      ⟨-, -, next, -⟩
    · simp [next, Latch.State.closed] at gate
    · exact .inl (by simpa [next] using gate)
    · exact .inl (by simpa [next] using gate)
  | _ =>
    rw [decided] at gate
    exact .inl (by simpa using gate)

/-- An accepted card raises the flag for cards. -/
theorem checker_accepted {uid : Bytes} (accepted : verdict crypto s call = .card uid) :
    ((server crypto).next s call).checker = true := by
  -- The latch raises the flag when it sees a card.
  have gate := congrArg Latch.State.checker (serve_gate crypto s call)
  rw [accepted] at gate
  simpa using gate

/-- A login leaves the flag for cards as it is. -/
theorem checker_password {call : Call} (login : call.json.map Request.type = some "Password") :
    ((server crypto).next s call).checker = s.checker := by
  obtain ⟨req, carried, type⟩ := Option.map_eq_some_iff.mp login
  -- The handler sets the other flag or the counter.
  have unasked : ¬ call.IsOpen := fun asked => by simp [asked.json] at carried
  rw [serve_state, if_neg unasked, carried]
  simp only [Option.elim_some, jsonNext, type, if_true]
  split_ifs <;> rfl

/-- What a request makes of a row that is already there. -/
def rowAfter (card : Card) : Card :=
  match installs s call with
  | some (uid, key) => if card.uid = uid then card.rotate key else card
  | none => card

/-- Every row stays where it is, whatever is requested. -/
theorem serve_row {i : Nat} {card : Card} (row : s.cards[i]? = some card) :
    ((server crypto).next s call).cards[i]? = some (rowAfter s call card) := by
  rw [serve_cards, rowAfter]
  -- A row that is enrolled stands behind all others.
  cases enrolled : enrols crypto s call with
  | some added =>
    have bound : i < s.cards.length := (List.getElem?_eq_some_iff.mp row).1
    simp [installs_of_enrols crypto s call enrolled, List.getElem?_append_left bound, row]
  | none =>
    cases installs s call with
    | none => exact row
    | some pair => simp [install, row]

/-- The row found for a card afterwards is the row found before, or the one enrolled. -/
theorem serve_select (uid : Bytes) :
    selectCard ((server crypto).next s call).cards uid =
      ((selectCard s.cards uid).map (rowAfter s call)).or
        ((enrols crypto s call).filter fun row => row.uid = uid) := by
  rw [serve_cards]
  cases enrolled : enrols crypto s call with
  | some row =>
    have kept : rowAfter s call = id := by
      funext card
      simp [rowAfter, installs_of_enrols crypto s call enrolled]
    -- The enrolled row is found where no other is.
    simp only [kept, Option.map_id, id, selectCard, List.find?_append, List.find?_singleton,
      Option.filter_some]
  | none =>
    cases installed : installs s call with
    | none =>
      have kept : rowAfter s call = id := by
        funext card
        simp [rowAfter, installed]
      simp [kept]
    | some pair =>
      have rotated : rowAfter s call =
          fun card => if card.uid = pair.1 then card.rotate pair.2 else card := by
        funext card
        simp [rowAfter, installed]
      simp only [install, selectCard_update, rotated, Option.filter_none, Option.or_none]

section
variable (card : Card)

@[simp] theorem rowAfter_uid : (rowAfter s call card).uid = card.uid := by
  unfold rowAfter
  split
  · split_ifs <;> rfl
  · rfl

@[simp] theorem rowAfter_hashedPassword :
    (rowAfter s call card).hashedPassword = card.hashedPassword := by
  unfold rowAfter
  split
  · split_ifs <;> rfl
  · rfl

@[simp] theorem rowAfter_totpSecretKey :
    (rowAfter s call card).totpSecretKey = card.totpSecretKey := by
  unfold rowAfter
  split
  · split_ifs <;> rfl
  · rfl

end

/-- A request names a card when it carries its identifier. -/
def Call.Names (call : Call) (uid : Bytes) : Prop :=
  ∃ req, call.json = some req ∧ hexBytes req.uid = uid

/-- A key is installed for the card the request names. -/
theorem names_of_installs {uid key : Bytes} (installed : installs s call = some (uid, key)) :
    call.Names uid := by
  -- The key is installed for the card in the request.
  unfold installs newKey at installed
  split_ifs at installed
  obtain ⟨req, carried, pair⟩ := Option.bind_eq_some_iff.mp installed
  split_ifs at pair
  exact ⟨req, carried, (Prod.mk.inj (Option.some.inj pair)).1⟩

/-- A row of a card the request does not name stays as it is. -/
theorem rowAfter_of_not_names {card : Card} (unnamed : ¬ call.Names card.uid) :
    rowAfter s call card = card := by
  unfold rowAfter
  -- A key is installed for the named card only.
  cases installed : installs s call with
  | none => rfl
  | some pair =>
    have other : card.uid ≠ pair.1 := by
      intro same
      have named : call.Names pair.1 := names_of_installs s call installed
      exact unnamed (same ▸ named)
    simp [other]

end

/-- Some row of a card holds other keys afterwards. -/
def RotatesKey (s s' : Server) (uid : Bytes) : Prop :=
  ∃ (i : Nat) (card card' : Card), s.cards[i]? = some card ∧ s'.cards[i]? = some card' ∧
    card.uid = uid ∧
      (card'.keyThisTime ≠ card.keyThisTime ∨ card'.keyLastTime ≠ card.keyLastTime)

section
variable (crypto : Crypto)

/-- Keys are replaced by the requests that install one, except in rows it already filled. -/
theorem rotatesKey_iff (s : Server) (call : Call) (uid : Bytes) :
    RotatesKey s ((server crypto).next s call) uid ↔
      ∃ key, installs s call = some (uid, key) ∧
        ∃ card ∈ s.cards, card.uid = uid ∧ ¬ (card.keyThisTime = key ∧ card.keyLastTime = key) := by
  constructor
  · intro rotates
    obtain ⟨i, card, card', row, row', is, changed⟩ := rotates
    -- The row stands where it stood, so it is compared with itself.
    rw [serve_row crypto s call row] at row'
    obtain rfl := Option.some.inj row'
    unfold rowAfter at changed
    cases installed : installs s call with
    | none => simp [installed] at changed
    | some pair =>
      by_cases named : card.uid = pair.1
      · -- The row is one the key is installed in, and did not hold it twice.
        refine ⟨pair.2, by rw [← is, named], card, List.mem_of_getElem? row, is, ?_⟩
        simp only [installed, named, if_true, Card.rotate] at changed
        intro twice
        obtain ⟨this, last⟩ := twice
        simp [this, last] at changed
      · simp [installed, named] at changed
  · intro replaced
    obtain ⟨key, installed, card, listed, is, differs⟩ := replaced
    -- Conversely the row in the table is found again afterwards.
    obtain ⟨i, row⟩ := List.getElem?_of_mem listed
    refine ⟨i, card, _, row, serve_row crypto s call row, is, ?_⟩
    simp only [rowAfter, installed, is, if_true, Card.rotate]
    -- A row that keeps both keys held the new one twice.
    by_contra same
    simp only [not_or, not_not] at same
    exact differs ⟨same.1.symm, same.2.symm.trans same.1.symm⟩

/--
A key is installed for a card that was accepted since the door last opened, or changes nothing.

The flag that permits it does not say whose card was accepted.
-/
def AuthorisedRotation (r : Recorded Server Call Reply) (call : Call) : Prop :=
  ∀ uid key, installs r.now call = some (uid, key) →
    (∃ e ∈ sinceLast Opened r.log, Accepted crypto uid e) ∨
      ∀ card ∈ r.now.cards, card.uid = uid → card.keyThisTime = key ∧ card.keyLastTime = key

/-- Throughout a run keys are replaced only for cards accepted since the door last opened,
exactly when every request that installs a key is authorised. -/
theorem rotation_authorised_iff (cards : Cards) (run : List Call) :
    (∀ done call, done ++ [call] <+: run → ∀ uid,
      RotatesKey ((server crypto).after (Server.start cards) done)
        ((server crypto).next ((server crypto).after (Server.start cards) done) call) uid →
      ∃ e ∈ sinceLast Opened ((server crypto).history (Server.start cards) done),
        Accepted crypto uid e) ↔
      (server crypto).recorded.Along (AuthorisedRotation crypto) ⟨Server.start cards, []⟩ run := by
  -- Both sides speak of every request of the run, where it arrives.
  rw [Machine.along_iff_forall]
  refine forall_congr' fun done => forall_congr' fun call => imp_congr_right fun _ =>
    forall_congr' fun uid => ?_
  rw [Machine.recorded_after]
  simp only [rotatesKey_iff]
  constructor
  · intro authorised key installed
    -- A key that some row does not hold yet would rotate it.
    by_contra neither
    simp only [not_or, not_forall] at neither
    obtain ⟨unaccepted, card, listed, is, differs⟩ := neither
    exact unaccepted (authorised ⟨key, installed, card, listed, is, differs⟩)
  · intro authorised replaced
    obtain ⟨key, installed, card, listed, is, differs⟩ := replaced
    exact (authorised key installed).resolve_right fun same => differs (same card listed is)

/-- Bob's card lets a client replace the key of Alice's card. -/
theorem rotates_for_a_stranger :
    ¬ ∀ (cards : Cards) (run done : List Call) (call : Call), done ++ [call] <+: run → ∀ uid,
      RotatesKey ((server Crypto.standard).after (Server.start cards) done)
        ((server Crypto.standard).next
          ((server Crypto.standard).after (Server.start cards) done) call) uid →
      ∃ e ∈ sinceLast Opened ((server Crypto.standard).history (Server.start cards) done),
        Accepted Crypto.standard uid e := by
  intro authorised
  -- The row of Alice is the first of the table.
  have accepted := authorised twoCards _ [uidKeyCall quietEnv bob bobKey]
    (newCardKeyCall quietEnv alice bobKey) List.prefix_rfl alice
    ⟨0, enrolledCard alice aliceKey,
      { enrolledCard alice aliceKey with keyThisTime := bobKey },
      rfl, by decide +kernel, rfl, .inl (by decide)⟩
  -- The only card accepted is Bob's.
  exact absurd accepted (by decide)

end

section
variable (crypto : Crypto) (s : Server) {call : Call} {uid key : Bytes}

/-- A request that names no new key and presents no unknown card leaves every row as it is. -/
theorem select_untouched (idle : newKey call = none)
    (known : ∀ pair, presents call = some pair → (selectCard s.cards pair.1).isSome = true)
    (v : Bytes) :
    selectCard ((server crypto).next s call).cards v = selectCard s.cards v := by
  have kept : rowAfter s call = id := by
    funext card
    simp [rowAfter, installs, idle]
  rw [serve_select, kept, Option.map_id, id]
  cases enrolled : enrols crypto s call with
  | none => simp
  | some row =>
    -- The row enrolled for a card that has one already is not found.
    obtain ⟨pair, presented, rfl⟩ :=
      Option.map_eq_some_iff.mp (enrols_some crypto s call enrolled).2
    by_cases same : pair.1 = v
    · obtain ⟨card, found⟩ := Option.isSome_iff_exists.mp (known pair presented)
      rw [same] at found
      simp [found]
    · rw [Option.filter_some, if_neg (by simpa using same), Option.or_none]

/-- A request that names a new key enrols no row. -/
theorem enrols_of_newKey {pair : Bytes × Bytes} (new : newKey call = some pair) :
    enrols crypto s call = none := by
  -- A request that enrols a row presents a card.
  cases enrolled : enrols crypto s call with
  | none => rfl
  | some row =>
    obtain ⟨pair, presented, -⟩ := Option.map_eq_some_iff.mp (enrols_some crypto s call enrolled).2
    simp [newKey_of_presents call presented] at new

/-- A new key is stored while some card is accepted and the database works. -/
theorem select_installed (new : newKey call = some (uid, key)) (permitted : s.checker = true)
    (works : call.env.execFails = false) (v : Bytes) :
    selectCard ((server crypto).next s call).cards v =
      (selectCard s.cards v).map fun card => if card.uid = uid then card.rotate key else card := by
  -- Every row of the card is rotated, and the earliest is the one found.
  have rotated :
      rowAfter s call = fun card => if card.uid = uid then card.rotate key else card := by
    funext card
    simp [rowAfter, installs, permitted, works, new]
  rw [serve_select, enrols_of_newKey crypto s new, rotated, Option.filter_none, Option.or_none]

/-- A new key is dropped while no card is accepted. -/
theorem select_dropped (new : newKey call = some (uid, key)) (refused : s.checker = false)
    (v : Bytes) :
    selectCard ((server crypto).next s call).cards v = selectCard s.cards v := by
  -- Nothing is installed, so no row changes.
  have kept : rowAfter s call = id := by
    funext card
    simp [rowAfter, installs, refused]
  rw [serve_select, enrols_of_newKey crypto s new, kept, Option.filter_none, Option.or_none,
    Option.map_id, id]

end

section
variable (env : Env) (uid key : Bytes)

@[simp] theorem newKey_uidKeyCall : newKey (uidKeyCall env uid key) = none := rfl

@[simp] theorem newKey_openCall : newKey (openCall env) = none := rfl

@[simp] theorem presents_openCall : presents (openCall env) = none := rfl

/-- The second request of a session names its card's new key. -/
@[simp] theorem newKey_newCardKeyCall :
    newKey (newCardKeyCall env uid key) = some (uid, key) := by
  simp [newKey, newCardKeyCall]

/-- The first request of a session presents its card. -/
@[simp] theorem presents_uidKeyCall : presents (uidKeyCall env uid key) = some (uid, key) := by
  have type : (uidKeyRequest uid key).type = "UID_KEY" := rfl
  have named : hexBytes (uidKeyRequest uid key).uid = uid := hexBytes_bytesToHexString uid
  have held : hexBytes (uidKeyRequest uid key).otAK = key := hexBytes_bytesToHexString key
  simp [presents, uidKeyCall, type, named, held]

end

/-- A login names no new key. -/
theorem newKey_password {call : Call} (login : call.json.map Request.type = some "Password") :
    newKey call = none := by
  -- The type of the request is another one.
  obtain ⟨req, carried, type⟩ := Option.map_eq_some_iff.mp login
  simp [newKey, carried, type]

/-- A login presents no card. -/
theorem presents_password {call : Call} (login : call.json.map Request.type = some "Password") :
    presents call = none := by
  -- The type of the request is another one.
  obtain ⟨req, carried, type⟩ := Option.map_eq_some_iff.mp login
  simp [presents, carried, type]

end Rfid
