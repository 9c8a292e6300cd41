import RfidEncryption.Server.Store

/-! The keys in the table, as a function of everything requested before. -/

namespace Rfid

open Reactive

section
variable (crypto : Crypto)

/-- The row enrolled by the first `UID_KEY` request of a log. -/
def enrolled (log : List ServerStep) : Option Card :=
  log.reverse.findSome? fun e => enrolment crypto e.input

/-- A later request enrols a row only when none before it did. -/
theorem enrolled_cons (e : ServerStep) (log : List ServerStep) :
    enrolled crypto (e :: log) = (enrolled crypto log).or (enrolment crypto e.input) := by
  -- The search goes from the earliest request to the latest.
  simp [enrolled, List.findSome?_append]

/-- The row of a card as it was at first: the earliest in the table, or the one enrolled. -/
def original (cards : Cards) (uid : Bytes) (log : List ServerStep) : Option Card :=
  (selectCard cards uid).or ((enrolled crypto log).filter fun row => row.uid = uid)

end

/-- The key a logged request installed for a card. -/
def installedFor (uid : Bytes) (e : ServerStep) : Option Bytes :=
  (installs e.before e.input).bind fun (named, key) => if named = uid then some key else none

/-- The last key installed for a card, with the server it was installed in. -/
def lastInstall (uid : Bytes) (log : List ServerStep) : Option (Server × Bytes) :=
  log.findSome? fun e => (installedFor uid e).map fun key => (e.before, key)

/-- The row of a card after the last key of a log was installed. -/
def rowSince (uid : Bytes) (log : List ServerStep) (card : Card) : Card :=
  match lastInstall uid log with
  | none => card
  | some (before, key) =>
    { card with
      keyThisTime := key
      keyLastTime := (selectCard before.cards uid).elim [] Card.keyThisTime }

section
variable {uid : Bytes} {e : ServerStep} {log : List ServerStep}

/-- A request that installs no key for the card leaves the last one as it was. -/
theorem lastInstall_pass (passed : installedFor uid e = none) :
    lastInstall uid (e :: log) = lastInstall uid log := by
  simp [lastInstall, passed]

/-- A request that installs a key for the card is the last one to do so. -/
theorem lastInstall_new {key : Bytes} (installed : installedFor uid e = some key) :
    lastInstall uid (e :: log) = some (e.before, key) := by
  simp [lastInstall, installed]

/-- A log in which nothing was installed has no last key. -/
theorem lastInstall_none (nothing : ∀ e ∈ log, installs e.before e.input = none) :
    lastInstall uid log = none := by
  -- The search finds a key only where one was installed.
  rw [lastInstall, List.findSome?_eq_none_iff]
  intro e logged
  simp [installedFor, nothing e logged]

end

/-- What the table says about the requests that led to it. -/
structure StoreTells (crypto : Crypto) (cards : Cards) (r : Recorded Server Call Reply) : Prop where
  testOnce : r.now.testOnce = (enrolled crypto r.log).isNone
  checker : r.now.checker = true → (enrolled crypto r.log).isSome = true
  waiting : enrolled crypto r.log = none → ∀ e ∈ r.log, installs e.before e.input = none
  row : ∀ uid, selectCard r.now.cards uid =
    (original crypto cards uid r.log).map (rowSince uid r.log)
  found : ∀ uid before key, lastInstall uid r.log = some (before, key) →
    (selectCard before.cards uid).isSome = (selectCard r.now.cards uid).isSome

section
variable {crypto : Crypto} {cards : Cards} {r : Recorded Server Call Reply}

/-- A process that has served nothing tells the truth. -/
theorem storeTells_start : StoreTells crypto cards ⟨Server.start cards, []⟩ where
  testOnce := rfl
  checker flag := absurd flag (by simp [Server.start])
  waiting _ e logged := absurd logged (List.not_mem_nil)
  row uid := by
    have unchanged : rowSince uid [] = id := rfl
    simp [original, enrolled, unchanged, Server.start]
  found uid before key last := absurd last (by simp [lastInstall])

/-- A request that installs a key changes the row it is installed in, and no other. -/
theorem rowAfter_rowSince {s : Server} {call : Call} {uid : Bytes} {log : List ServerStep}
    {card : Card} (found : selectCard s.cards uid = some (rowSince uid log card)) :
    rowAfter s call (rowSince uid log card) =
      rowSince uid ((server crypto).entry s call :: log) card := by
  have named : (rowSince uid log card).uid = uid := selectCard_uid found
  -- The request installs a key for this card, for another one, or for none.
  unfold rowAfter
  cases installed : installs s call with
  | none =>
    have passed : installedFor uid ((server crypto).entry s call) = none := by
      simp [installedFor, Machine.entry, installed]
    rw [rowSince, rowSince, lastInstall_pass passed]
  | some pair =>
    obtain ⟨v, key⟩ := pair
    by_cases same : v = uid
    · -- The old key of this time, wherever it came from, becomes the key of last time.
      have new : installedFor uid ((server crypto).entry s call) = some key := by
        simp [installedFor, Machine.entry, installed, same]
      have rotated : rowSince uid ((server crypto).entry s call :: log) card =
          { card with keyThisTime := key, keyLastTime := (rowSince uid log card).keyThisTime } := by
        rw [rowSince, lastInstall_new new]
        simp [Machine.entry, found]
      rw [rotated]
      dsimp only
      rw [if_pos (named.trans same.symm)]
      unfold rowSince Card.rotate
      split <;> rfl
    · have passed : installedFor uid ((server crypto).entry s call) = none := by
        simp [installedFor, Machine.entry, installed, same]
      have other : (rowSince uid log card).uid ≠ v := by
        rw [named]
        exact Ne.symm same
      dsimp only
      rw [if_neg other, rowSince, rowSince, lastInstall_pass passed]

/-- A row is enrolled before any key was installed, by a request that installs none. -/
theorem StoreTells.idle (tells : StoreTells crypto cards r) {call : Call} {added : Card}
    (enrols : enrols crypto r.now call = some added) :
    enrolled crypto r.log = none ∧
      ∀ e ∈ (server crypto).entry r.now call :: r.log, installs e.before e.input = none := by
  obtain ⟨first, -⟩ := enrols_some crypto r.now call enrols
  have nothing : enrolled crypto r.log = none := by
    simpa [first] using tells.testOnce.symm
  refine ⟨nothing, fun e logged => ?_⟩
  rcases List.mem_cons.mp logged with rfl | earlier
  · exact installs_of_enrols crypto r.now call enrols
  · exact tells.waiting nothing e earlier

/-- A request that enrols no row leaves the row of a card as it was at first. -/
theorem StoreTells.original_next (tells : StoreTells crypto cards r) {call : Call}
    (nothing : enrols crypto r.now call = none) (uid : Bytes) :
    original crypto cards uid ((server crypto).entry r.now call :: r.log) =
      original crypto cards uid r.log := by
  rw [original, original, enrolled_cons, Machine.entry_input]
  cases known : enrolled crypto r.log with
  | some added => simp
  | none =>
    -- The process is still waiting for its first card, and this request presents none.
    have first : r.now.testOnce = true := by simp [tells.testOnce, known]
    simp [enrolment_of_enrols crypto r.now call nothing first]

/-- Until a row is enrolled no key is installed. -/
theorem StoreTells.waiting_next (tells : StoreTells crypto cards r) (call : Call)
    (nothing : enrolled crypto ((server crypto).entry r.now call :: r.log) = none) :
    ∀ e ∈ (server crypto).entry r.now call :: r.log, installs e.before e.input = none := by
  intro e logged
  rw [enrolled_cons, Option.or_eq_none_iff] at nothing
  rcases List.mem_cons.mp logged with rfl | earlier
  · -- Without an enrolled row no card was accepted, so no key may be installed.
    have lowered : r.now.checker = false := by
      by_contra raised
      simpa [nothing.1] using tells.checker (by simpa using raised)
    simp [Machine.entry, installs, lowered]
  · exact tells.waiting nothing.1 e earlier

/-- The row found after a request is the one found before, changed by it, or the new one. -/
theorem StoreTells.row_next (tells : StoreTells crypto cards r) (call : Call) (uid : Bytes) :
    selectCard ((server crypto).next r.now call).cards uid =
      (original crypto cards uid ((server crypto).entry r.now call :: r.log)).map
        (rowSince uid ((server crypto).entry r.now call :: r.log)) := by
  rw [serve_select, tells.row]
  cases enrols : enrols crypto r.now call with
  | some added =>
    -- The first row is enrolled before any key was installed.
    obtain ⟨-, presented⟩ := enrols_some crypto r.now call enrols
    obtain ⟨nothing, idle⟩ := tells.idle enrols
    have unchanged : rowAfter r.now call = id := by
      funext card
      simp [rowAfter, installs_of_enrols crypto r.now call enrols]
    have since : rowSince uid r.log = id := by
      funext card
      simp [rowSince, lastInstall_none (tells.waiting nothing)]
    have since' : rowSince uid ((server crypto).entry r.now call :: r.log) = id := by
      funext card
      simp [rowSince, lastInstall_none idle]
    simp [original, enrolled_cons, nothing, presented, unchanged, since, since']
  | none =>
    rw [tells.original_next enrols, Option.filter_none, Option.or_none, Option.map_map]
    cases known : original crypto cards uid r.log with
    | none => rfl
    | some card => exact congrArg some (rowAfter_rowSince (by rw [tells.row uid, known]; rfl))

/-- The last key of a card was installed when the card had a row exactly if it has one now. -/
theorem StoreTells.found_next (tells : StoreTells crypto cards r) (call : Call) {uid key : Bytes}
    {before : Server}
    (last : lastInstall uid ((server crypto).entry r.now call :: r.log) = some (before, key)) :
    (selectCard before.cards uid).isSome =
      (selectCard ((server crypto).next r.now call).cards uid).isSome := by
  rw [serve_select]
  cases enrols : enrols crypto r.now call with
  | some added =>
    -- Nothing was installed before the first row is enrolled, and the request installs nothing.
    simp [lastInstall_none (tells.idle enrols).2] at last
  | none =>
    rw [Option.filter_none, Option.or_none, Option.isSome_map]
    cases installed : installedFor uid ((server crypto).entry r.now call) with
    | none => exact tells.found uid before key (lastInstall_pass installed ▸ last)
    | some new =>
      rw [lastInstall_new installed] at last
      obtain ⟨rfl, rfl⟩ := Prod.mk.inj (Option.some.inj last)
      rfl

/-- Every request leaves a table that says exactly what happened. -/
theorem StoreTells.next (tells : StoreTells crypto cards r) (call : Call) :
    StoreTells crypto cards ((server crypto).recorded.next r call) where
  testOnce := by
    -- The flag falls with the first row.
    simp only [Machine.recorded_next, serve_testOnce, enrolled_cons, Machine.entry_input,
      tells.testOnce]
    cases enrolled crypto r.log <;> simp
  checker flag := by
    simp only [Machine.recorded_next, enrolled_cons, Machine.entry_input]
    rcases serve_checker crypto r.now call flag with before | presented
    · simp [tells.checker before]
    · simp [presented]
  waiting := tells.waiting_next call
  row := tells.row_next call
  found _ _ _ := tells.found_next call

/-- After any run the table says exactly what happened. -/
theorem storeTells_after (run : List Call) :
    StoreTells crypto cards ((server crypto).recorded.after ⟨Server.start cards, []⟩ run) :=
  (server crypto).recorded.after_always (fun _ call tells => tells.next call) storeTells_start run

end

section
variable (crypto : Crypto)

/-- A request names a new key for a card while some card is accepted since the last 200. -/
def Effective (uid key : Bytes) (e : ServerStep) (earlier : List ServerStep) : Prop :=
  newKey e.input = some (uid, key) ∧
    ∃ d ∈ sinceLast Opened earlier, ∃ named, Accepted crypto named d

/-- The last effective new key for a card in a log, with the server it was requested of. -/
def latestUpdate (uid : Bytes) : List ServerStep → Option (Server × Bytes)
  | [] => none
  | e :: log =>
    match newKey e.input with
    | some (named, key) =>
      if named = uid ∧ ∃ d ∈ sinceLast Opened log, ∃ accepted, Accepted crypto accepted d then
        some (e.before, key)
      else latestUpdate uid log
    | none => latestUpdate uid log

/-- The last effective key is the last one installed, as long as the database works. -/
theorem latestUpdate_history (cards : Cards) (uid : Bytes) (run : List Call)
    (steady : ∀ call ∈ run, call.env.execFails = false) :
    latestUpdate crypto uid ((server crypto).history (Server.start cards) run) =
      lastInstall uid ((server crypto).history (Server.start cards) run) := by
  -- The flag that permits an installation is what the log says about accepted cards.
  induction run using List.reverseRecOn with
  | nil => rfl
  | append_singleton run call ih =>
    have works : call.env.execFails = false := steady call (by simp)
    have before := ih fun other listed => steady other (by simp [listed])
    have flag := checker_history crypto cards run
    rw [Machine.history_snoc, latestUpdate, lastInstall, List.findSome?_cons, before]
    simp only [installedFor, Machine.entry, installs, works, and_true, ← flag]
    -- A request that names no key is passed over by both searches.
    cases newKey call with
    | none => simp [lastInstall, installedFor, installs]
    | some pair =>
      obtain ⟨named, key⟩ := pair
      by_cases permitted : ((server crypto).after (Server.start cards) run).checker = true
      · by_cases same : named = uid <;>
          simp [permitted, same, lastInstall, installedFor, installs]
      · simp [permitted, lastInstall, installedFor, installs]

/-- A presented key is accepted when it is that of the card's earliest row afterwards. -/
theorem accepted_iff (s : Server) {call : Call} {uid key : Bytes}
    (presented : presents call = some (uid, key)) (steady : call.env.scanFails = false) :
    Accepted crypto uid ((server crypto).entry s call) ↔
      ∃ card, selectCard ((server crypto).next s call).cards uid = some card ∧
        key = card.keyThisTime := by
  obtain ⟨req, carried, pair⟩ := Option.bind_eq_some_iff.mp presented
  split_ifs at pair with uidKey
  obtain ⟨rfl, rfl⟩ := Prod.mk.inj (Option.some.inj pair)
  have unasked : ¬ call.IsOpen := fun asked => by simp [asked.json] at carried
  -- The checker reads the table after the registration, as the next state has it.
  have cards :
      ((server crypto).next s call).cards = (testRegister crypto call.env s req).cards := by
    rw [serve_state, if_neg unasked, carried]
    simp only [Option.elim_some, jsonNext, uidKey]
    split_ifs <;> simp_all
  have decided := @databaseChecker_key crypto call.env (testRegister crypto call.env s req).cards
    (hexBytes req.uid) (hexBytes req.otAK)
  simp only [steady, Bool.false_eq_true, if_false] at decided
  rw [cards, ← decided]
  -- The verdict is what the checker says.
  have judged : verdict crypto s call =
      if uidKeyMatches crypto call.env s req then .card (hexBytes req.uid) else .other := by
    simp [verdict, unasked, carried, uidKey]
  simp only [Accepted, Machine.entry, judged, uidKeyMatches, decide_eq_true_eq]
  split_ifs with fits <;> simp [fits]

/-- A key replaced by another stays replaced until it is installed again. -/
theorem latestUpdate_replaced {uid key old : Bytes} {e : ServerStep}
    {later earlier : List ServerStep} (effective : Effective crypto uid key e earlier)
    (other : key ≠ old)
    (never : ∀ later' d between, later = later' ++ d :: between →
      ¬ Effective crypto uid old d (between ++ e :: earlier)) :
    ∃ before key', latestUpdate crypto uid (later ++ e :: earlier) = some (before, key') ∧
      key' ≠ old := by
  -- The entries later than the replacement are passed over or install another key.
  induction later with
  | nil =>
    obtain ⟨new, accepted⟩ := effective
    exact ⟨e.before, key, by simp [latestUpdate, new, accepted], other⟩
  | cons d later ih =>
    have before := ih fun later' d' between split =>
      never (d :: later') d' between (by rw [split, List.cons_append])
    rw [List.cons_append, latestUpdate]
    cases new : newKey d.input with
    | none => exact before
    | some pair =>
      obtain ⟨named, key'⟩ := pair
      dsimp only
      split_ifs with permitted
      · -- The later key is effective, so it is not the old one.
        obtain ⟨rfl, accepted⟩ := permitted
        refine ⟨d.before, key', rfl, ?_⟩
        rintro rfl
        exact never [] d later rfl ⟨new, accepted⟩
      · exact before

section
variable (cards : Cards) {run : List Call} (steady : ∀ call ∈ run, call.env.execFails = false)

include steady

/-- A key is accepted when it is the last effective one of its card, or the first of its row. -/
theorem accepted_history {call : Call} {uid key : Bytes}
    (presented : presents call = some (uid, key)) (works : call.env.scanFails = false) :
    Accepted crypto uid
        ((server crypto).entry ((server crypto).after (Server.start cards) run) call) ↔
      ∃ row, original crypto cards uid
          ((server crypto).entry ((server crypto).after (Server.start cards) run) call ::
            (server crypto).history (Server.start cards) run) = some row ∧
        key = ((latestUpdate crypto uid ((server crypto).history (Server.start cards) run)).map
          Prod.snd).getD row.keyThisTime := by
  -- Acceptance is read off the table after the request.
  have told := ((@storeTells_after crypto cards run).next call).row uid
  rw [Machine.recorded_after] at told
  simp only [Machine.recorded_next] at told
  have passed : installedFor uid
      ((server crypto).entry ((server crypto).after (Server.start cards) run) call) = none := by
    simp [installedFor, Machine.entry, installs, newKey_of_presents call presented]
  -- The request that presents the key installs none.
  rw [accepted_iff crypto _ presented works, told, latestUpdate_history crypto cards uid run steady]
  simp only [Option.map_eq_some_iff, exists_exists_and_eq_and]
  refine exists_congr fun row => and_congr_right fun _ => ?_
  rw [rowSince, lastInstall_pass passed]
  cases lastInstall uid ((server crypto).history (Server.start cards) run) <;> rfl

/-- The key of last time is the one the last effective key replaced. -/
theorem keyLastTime_history {uid key : Bytes} {row : Card} {before : Server}
    (found : selectCard ((server crypto).after (Server.start cards) run).cards uid = some row)
    (latest : latestUpdate crypto uid ((server crypto).history (Server.start cards) run) =
      some (before, key)) :
    ∃ old, selectCard before.cards uid = some old ∧ row.keyLastTime = old.keyThisTime := by
  have tells := @storeTells_after crypto cards run
  rw [Machine.recorded_after] at tells
  rw [latestUpdate_history crypto cards uid run steady] at latest
  have told := tells.row uid
  rw [found] at told
  -- The row is the first one of the card with the last key in it.
  obtain ⟨first, -, rfl⟩ := Option.map_eq_some_iff.mp told.symm
  -- The card had a row already when its last key was installed.
  have present := tells.found uid before key latest
  rw [found, Option.isSome_some] at present
  obtain ⟨old, held⟩ := Option.isSome_iff_exists.mp present
  refine ⟨old, held, ?_⟩
  simp [rowSince, latest, held]

end

/--
The keys in the table are decided by the history of the run alone.

A key is accepted when it is the last effective one of its card, or the first if there was none.
The key of last time is the one the last effective key replaced.
Passwords and secrets never change, nor do rows of cards a request does not name.
A key that was replaced is not accepted until it is installed again.
-/
theorem key_history (cards : Cards) (run : List Call)
    (steady : ∀ call ∈ run, call.env.execFails = false) :
    let s := (server crypto).after (Server.start cards) run
    let log := (server crypto).history (Server.start cards) run
    (∀ call uid key, presents call = some (uid, key) → call.env.scanFails = false →
      (Accepted crypto uid ((server crypto).entry s call) ↔
        ∃ row, original crypto cards uid ((server crypto).entry s call :: log) = some row ∧
          key = ((latestUpdate crypto uid log).map Prod.snd).getD row.keyThisTime)) ∧
    (∀ uid row before key, selectCard s.cards uid = some row →
      latestUpdate crypto uid log = some (before, key) →
        ∃ old, selectCard before.cards uid = some old ∧ row.keyLastTime = old.keyThisTime) ∧
    (∀ call (i : Nat) row, s.cards[i]? = some row →
      ∃ row', ((server crypto).next s call).cards[i]? = some row' ∧
        row'.hashedPassword = row.hashedPassword ∧ row'.totpSecretKey = row.totpSecretKey ∧
          (¬ call.Names row.uid → row' = row)) ∧
    (∀ uid key old e later earlier, log = later ++ e :: earlier →
      Effective crypto uid key e earlier → selectCard e.before.cards uid = some old →
      key ≠ old.keyThisTime →
      (∀ later' d between, later = later' ++ d :: between →
        ¬ Effective crypto uid old.keyThisTime d (between ++ e :: earlier)) →
      ∀ call, presents call = some (uid, old.keyThisTime) → call.env.scanFails = false →
        ¬ Accepted crypto uid ((server crypto).entry s call)) := by
  intro s log
  refine ⟨fun call uid key => accepted_history crypto cards steady,
    fun uid row before key => keyLastTime_history crypto cards steady, ?_, ?_⟩
  · intro call i row listed
    exact ⟨rowAfter s call row, serve_row crypto s call listed, by simp, by simp,
      rowAfter_of_not_names s call⟩
  · intro uid key old e later earlier split effective held other never call presented works
    -- A key replaced by another is not the latest.
    rw [accepted_history crypto cards steady presented works]
    intro still
    obtain ⟨row, -, fits⟩ := still
    obtain ⟨before, key', latest, differs⟩ :=
      latestUpdate_replaced crypto effective other never
    rw [show (server crypto).history (Server.start cards) run = later ++ e :: earlier from split,
      latest] at fits
    exact differs fits.symm

end

/-- A key Bob's card was given is accepted when it is presented next. -/
theorem key_history_visit :
    Accepted Crypto.standard bob
      ((server Crypto.standard).entry
        ((server Crypto.standard).after (Server.start twoCards)
          [uidKeyCall quietEnv bob bobKey, newCardKeyCall quietEnv bob aliceKey])
        (uidKeyCall quietEnv bob aliceKey)) :=
  ((key_history Crypto.standard twoCards
    [uidKeyCall quietEnv bob bobKey, newCardKeyCall quietEnv bob aliceKey] (by decide)).1
      (uidKeyCall quietEnv bob aliceKey) bob aliceKey (by decide) rfl).mpr
    ⟨enrolledCard bob bobKey, by decide +kernel, by decide +kernel⟩

end Rfid
