import RfidEncryption.Server.Clients
import RfidEncryption.Server.Store

/-! The table across restarts: how many rows a card has, and which secret is read for it. -/

namespace Rfid

open Reactive

/-- What happens to the server: its process starts, or serves a request. -/
inductive Life where
  | start
  | request (call : Call)

/-- `database_builder`: an empty table where there is none, and no other change. -/
def databaseBuilder (file : Option Cards) : Cards := file.getD []

section
variable (crypto : Crypto)

/-- The server over any number of starts on one database. -/
def serverLife : Machine Server Life (Option Reply) where
  step s
    -- Of a process that ends only the table is left.
    | .start => (Server.start (databaseBuilder (some s.cards)), none)
    | .request call => ((server crypto).next s call, some ((server crypto).answer s call))

/-- The first start, which creates the table. -/
def firstStart : Server := Server.start (databaseBuilder none)

@[simp] theorem serverLife_start (s : Server) :
    (serverLife crypto).next s .start = Server.start s.cards := rfl

@[simp] theorem serverLife_request (s : Server) (call : Call) :
    (serverLife crypto).next s (.request call) = (server crypto).next s call := rfl

/-- The card that is registered, and what was found then: its secret is shown as a QR code. -/
def shows (s : Server) : Life → Option (Bytes × Env)
  | .start => none
  | .request call => (enrols crypto s call).map fun row => (row.uid, call.env)

/-- What was found when a secret was last shown for a card. -/
def lastShown (uid : Bytes) (log : List (Entry Server Life (Option Reply))) : Option Env :=
  log.findSome? fun e =>
    (shows crypto e.before e.input).bind fun (named, env) => if named = uid then some env else none

/--
No card has two rows, and the row of a card that is read holds the secret last shown for it.

It holds that secret as the column gives it back.
-/
def OneRecord (r : Recorded Server Life (Option Reply)) : Prop :=
  (r.now.cards.map Card.uid).Nodup ∧
    ∀ uid, (selectCard r.now.cards uid).map Card.totpSecretKey =
      (lastShown crypto uid r.log).map fun env => env.readBack env.secret

/-- The first card presented to a process has no row yet. -/
def PresentsNewCard (s : Server) : Life → Prop
  | .start => True
  | .request call =>
    s.testOnce = true → ∀ uid key, presents call = some (uid, key) → selectCard s.cards uid = none

/-- Requests keep the identifiers in the table, and an enrolled row adds its own behind them. -/
theorem serve_uids (s : Server) (call : Call) :
    ((server crypto).next s call).cards.map Card.uid =
      s.cards.map Card.uid ++ ((enrols crypto s call).map Card.uid).toList := by
  rw [serve_cards]
  cases enrols crypto s call with
  | some row => simp
  | none =>
    cases installs s call with
    | none => simp
    | some pair =>
      -- A new key leaves the identifier of its row alone.
      have same : ∀ card : Card,
          (if card.uid = pair.1 then card.rotate pair.2 else card).uid = card.uid := by
        intro card
        split <;> rfl
      simp [install, Function.comp_def, same]

/-- The secret read for a card changes only when the card is enrolled without having a row. -/
theorem serve_secret (s : Server) (call : Call) (uid : Bytes) :
    (selectCard ((server crypto).next s call).cards uid).map Card.totpSecretKey =
      ((selectCard s.cards uid).map Card.totpSecretKey).or
        (((enrols crypto s call).filter fun row => row.uid = uid).map Card.totpSecretKey) := by
  -- A new key leaves the secret of its row alone.
  rw [serve_select, Option.map_or, Option.map_map]
  simp [Function.comp_def]

/-- A row is enrolled for the card that is presented while testing, with the secret just drawn. -/
theorem enrols_presents {s : Server} {call : Call} {row : Card}
    (enrolled : enrols crypto s call = some row) :
    s.testOnce = true ∧ (∃ key, presents call = some (row.uid, key)) ∧
      row.totpSecretKey = call.env.readBack call.env.secret := by
  obtain ⟨first, row_eq⟩ := enrols_some crypto s call enrolled
  obtain ⟨⟨uid, key⟩, presented, rfl⟩ := Option.map_eq_some_iff.mp row_eq
  exact ⟨first, ⟨key, presented⟩, rfl⟩

/-- The secret last shown for a card is that of the latest step, if it shows one. -/
theorem lastShown_cons (uid : Bytes) (e : Entry Server Life (Option Reply))
    (log : List (Entry Server Life (Option Reply))) :
    lastShown crypto uid (e :: log) =
      (((shows crypto e.before e.input).filter fun shown => shown.1 = uid).map Prod.snd).or
        (lastShown crypto uid log) := by
  -- The latest step stands first in the log.
  simp only [lastShown, List.findSome?_cons]
  cases shows crypto e.before e.input with
  | none => rfl
  | some shown => by_cases same : shown.1 = uid <;> simp [Option.filter_some, same]

/-- A step keeps one record for each card as long as it presents no card that has one. -/
theorem oneRecord_next (r : Recorded Server Life (Option Reply)) (i : Life)
    (held : OneRecord crypto r) (new : PresentsNewCard r.now i) :
    OneRecord crypto ((serverLife crypto).recorded.next r i) := by
  obtain ⟨once, secrets⟩ := held
  unfold OneRecord
  simp only [Machine.recorded_next, lastShown_cons, Machine.entry]
  cases i with
  | start => exact ⟨once, fun uid => by simp [shows, Server.start, secrets]⟩
  | request call =>
    simp only [serverLife_request, serve_uids, serve_secret, shows]
    cases enrolled : enrols crypto r.now call with
    | none => exact ⟨by simpa using once, fun uid => by simp [secrets]⟩
    | some row =>
      -- The row is the only one of its card, and holds the secret that was just shown.
      obtain ⟨first, ⟨key, presented⟩, drawn⟩ := enrols_presents crypto enrolled
      have unknown := new first row.uid key presented
      constructor
      · have fresh : row.uid ∉ r.now.cards.map Card.uid := by
          intro listed
          obtain ⟨card, listed, same⟩ := List.mem_map.mp listed
          simp [selectCard] at unknown
          exact unknown card listed same
        simpa [List.nodup_append, once] using fresh
      · intro uid
        by_cases same : row.uid = uid
        · simp [Option.filter_some, same, same ▸ unknown, drawn]
        · simp [Option.filter_some, same, secrets]

/-- The first card of a process gets a row even if it has one. -/
theorem oneRecord_breaks (r : Recorded Server Life (Option Reply)) (i : Life)
    (known : ¬ PresentsNewCard r.now i) :
    ¬ OneRecord crypto ((serverLife crypto).recorded.next r i) := by
  cases i with
  | start => exact absurd trivial known
  | request call =>
    simp only [PresentsNewCard, not_forall] at known
    obtain ⟨first, uid, key, presented, listed⟩ := known
    -- The row that is enrolled repeats an identifier of the table.
    have enrolled : (enrols crypto r.now call).map Card.uid = some uid := by
      simp [enrols, enrolment, first, presented]
    intro one
    have once := one.1
    simp only [Machine.recorded_next, serverLife_request, serve_uids, enrolled] at once
    obtain ⟨card, found⟩ := Option.ne_none_iff_exists'.mp listed
    have row := List.mem_map_of_mem (f := Card.uid) (List.mem_of_find?_eq_some found)
    rw [selectCard_uid found] at row
    exact (List.nodup_append.mp once).2.2 uid row uid (by simp) rfl

/--
Every card has one record throughout a run exactly when each process is first presented a card
without one.

The flag that lets a process register a card is not kept in the database.
-/
theorem one_record_iff (run : List Life) :
    (∀ done, done <+: run → OneRecord crypto
      ⟨(serverLife crypto).after firstStart done, (serverLife crypto).history firstStart done⟩) ↔
      (serverLife crypto).Along PresentsNewCard firstStart run := by
  rw [← Machine.recorded_along (r := ⟨firstStart, []⟩)]
  rw [← (serverLife crypto).recorded.throughout_iff_along (I := OneRecord crypto)
    (P := OneRecord crypto) (fun _ held => held) (oneRecord_next crypto)
    (fun r i _ => oneRecord_breaks crypto r i)]
  · simp only [Machine.recorded_after]
  · -- An empty table has no rows, and nothing was shown yet.
    exact ⟨List.nodup_nil, fun uid => rfl⟩

end

/-- Bob's card is registered again after a restart, and the secret shown then is never read. -/
theorem registered_twice :
    ¬ ∀ run done : List Life, done <+: run → OneRecord Crypto.standard
      ⟨(serverLife Crypto.standard).after firstStart done,
        (serverLife Crypto.standard).history firstStart done⟩ := by
  intro one
  let again : Env := { quietEnv with secret := "GEZDGNBVGY3TQOJQGEZDGNBVGY3TQOJQ" }
  let run : List Life := [.request (uidKeyCall quietEnv bob bobKey), .start,
    .request (uidKeyCall again bob bobKey)]
  obtain ⟨-, secrets⟩ := one run run List.prefix_rfl
  -- The row of the first registration is still the one that is found.
  exact absurd (secrets bob) (by decide)

end Rfid
