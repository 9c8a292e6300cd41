import Mathlib.Data.Fintype.Basic
import RfidEncryption.System.Sessions
import RfidEncryption.System.StoredKey

/-! Whether card and table hold the same key whenever no session of the card is in progress. -/

namespace Rfid

open Reactive

variable {ι : Type*} [DecidableEq ι]

/-- Each enrolled card is at one reader at a time, and the database works. -/
def Attended (s : Sys ι) : Act ι → Prop
  | .tap _ uid =>
    (selectCard s.server.cards uid.toList).isSome = true ∧
      ∀ j, (s.reader j).busy = true → (s.reader j).uid ≠ uid
  | .write _ (.delivered env) => env.execFails = false
  | _ => True

/-- Nothing fails, and each enrolled card is at one reader at a time. -/
def Calm (s : Sys ι) (act : Act ι) : Prop := Orderly s act ∧ Attended s act

instance [Fintype ι] (s : Sys ι) (act : Act ι) : Decidable (Attended s act) :=
  match act with
  | .tap _ uid => inferInstanceAs (Decidable (_ = true ∧ ∀ j, (s.reader j).busy = true → _ ≠ uid))
  | .write _ (.delivered env) => inferInstanceAs (Decidable (env.execFails = false))
  | .write _ .lost | .write _ .failed | .request _ | .connect _ _ | .read _ _ | .readFails _
  | .program _ _ _ => inferInstanceAs (Decidable True)

instance [Fintype ι] (s : Sys ι) (act : Act ι) : Decidable (Calm s act) :=
  inferInstanceAs (Decidable (_ ∧ _))

/--
A new key reaches the server while the flag for cards is set, or is stored there already.

Another reader's call for the door may have cleared the flag since the card was accepted.
-/
def ArrivesInTime (s : Sys ι) : Act ι → Prop
  | .write i (.delivered _) =>
    (s.reader i).stage = .sendNewCardKey → s.server.checker = true ∨ AlreadyStored s i
  | _ => True

instance (s : Sys ι) (act : Act ι) : Decidable (ArrivesInTime s act) :=
  match act with
  | .write i (.delivered _) =>
    inferInstanceAs
      (Decidable ((s.reader i).stage = .sendNewCardKey → _ = true ∨ AlreadyStored s i))
  | .write _ .lost | .write _ .failed | .request _ | .tap _ _ | .connect _ _ | .read _ _
  | .readFails _ | .program _ _ _ => inferInstanceAs (Decidable True)

/-- Every card's key is stored, or about to be sent by the one reader that wrote it. -/
structure Synchronised (s : Sys ι) : Prop where
  exclusive : ∀ i j, (s.reader i).busy = true → (s.reader j).busy = true →
    (s.reader i).uid = (s.reader j).uid → i = j
  enrolled : ∀ i, (s.reader i).busy = true →
    (selectCard s.server.cards (s.reader i).uid.toList).isSome = true
  written : SendsWritten s
  stored : ∀ uid, KeyStored s uid

section
variable {crypto : Crypto} {s : Sys ι} {act : Act ι}

/-- No two readers come to be at one card. -/
theorem Synchronised.exclusive_next (sync : Synchronised s) (calm : Calm s act) :
    ∀ i j, (((system ι crypto).next s act).reader i).busy = true →
      (((system ι crypto).next s act).reader j).busy = true →
        (((system ι crypto).next s act).reader i).uid =
          (((system ι crypto).next s act).reader j).uid → i = j := by
  intro i j busy busy' same
  -- Both sessions went on, or one of them began with the tap.
  rcases (moves crypto s act i).busy busy with ⟨taps, -⟩ | ⟨before, kept⟩
  · rcases (moves crypto s act j).busy busy' with ⟨taps', -⟩ | ⟨before', kept'⟩
    · exact (Act.tap.inj (taps.symm.trans taps')).1
    · -- The card tapped at one reader is not at another.
      rw [taps] at calm
      exact absurd (kept'.symm.trans same.symm) (calm.2.2 j before')
  · rcases (moves crypto s act j).busy busy' with ⟨taps', -⟩ | ⟨before', kept'⟩
    · rw [taps'] at calm
      exact absurd (kept.symm.trans same) (calm.2.2 i before)
    · exact sync.exclusive i j before before' (kept.symm.trans (same.trans kept'))

/-- Every session remains one of an enrolled card. -/
theorem Synchronised.enrolled_next (sync : Synchronised s) (calm : Calm s act) :
    ∀ i, (((system ι crypto).next s act).reader i).busy = true →
      (selectCard ((system ι crypto).next s act).server.cards
        (((system ι crypto).next s act).reader i).uid.toList).isSome = true := by
  intro i busy
  -- A card that is presented has a row, and rows stay.
  refine select_isSome_next ?_
  rcases (moves crypto s act i).busy busy with ⟨taps, -⟩ | ⟨before, kept⟩
  · rw [taps] at calm
    exact calm.2.1
  · rw [kept]
    exact sync.enrolled i before

omit [DecidableEq ι] in
/-- A calm step is an ordinary one. -/
theorem Synchronised.ordinary (sync : Synchronised s) (calm : Calm s act) : Ordinary s act where
  logins call request := by
    subst request
    exact calm.1
  enrolled i _ _ stage := sync.enrolled i (by simp [Reader.busy, stage])
  works i env writes := by
    subst writes
    exact calm.2

omit [DecidableEq ι] in
/-- No new key is lost in a calm step in which it arrives in time. -/
theorem arrives_of_calm {i : ι} {fate : Fate} (calm : Calm s (.write i fate))
    (inTime : ArrivesInTime s (.write i fate)) (sends : (s.reader i).stage = .sendNewCardKey) :
    fate.Delivered ∧ s.server.checker = true ∨ AlreadyStored s i := by
  -- In a calm run nothing is lost.
  cases fate with
  | delivered env => exact (inTime sends).imp_left fun permitted => ⟨trivial, permitted⟩
  | lost => exact absurd calm.1 id
  | failed => exact absurd calm.1 id

/-- Every step of a calm run in which new keys arrive in time keeps the keys together. -/
theorem Synchronised.next (sync : Synchronised s) (calm : Calm s act)
    (inTime : ArrivesInTime s act) : Synchronised ((system ι crypto).next s act) where
  exclusive := sync.exclusive_next calm
  enrolled := sync.enrolled_next calm
  written := sync.written.next sync.exclusive fun i randomBytes done program => by
    subst program
    exact calm.1
  stored uid :=
    (sync.stored uid).next sync.written (sync.ordinary calm) fun i fate writes sends => by
    subst writes
    exact arrives_of_calm calm inTime sends

end

/-- Every card holds the key of its row. -/
def Fresh (cards : Cards) (card : Uid → CardKey) : Prop :=
  ∀ (uid : Uid) row, selectCard cards uid.toList = some row → row.keyThisTime = (card uid).toList

omit [DecidableEq ι] in
/-- Before any card is presented the keys are together if every card holds that of its row. -/
theorem synchronised_start {cards : Cards} {card : Uid → CardKey} (fresh : Fresh cards card) :
    Synchronised (Sys.start cards card : Sys ι) where
  exclusive i j busy := absurd busy (by simp [Sys.start, Reader.start, Reader.busy])
  enrolled i busy := absurd busy (by simp [Sys.start, Reader.start, Reader.busy])
  written i sends := absurd sends (by simp [Sys.start, Reader.start])
  stored uid row found := .inl (fresh uid row found)

/--
Throughout a calm run card and table hold the same key whenever no session of the card is in
progress, as long as every new key reaches the server while the flag for cards is set.

The card is written before the server is told.
-/
theorem rotation_kept (crypto : Crypto) (cards : Cards) (card : Uid → CardKey)
    (run : List (Act ι)) (fresh : Fresh cards card)
    (calm : (system ι crypto).Along Calm (Sys.start cards card) run)
    (inTime : (system ι crypto).Along ArrivesInTime (Sys.start cards card) run) :
    ∀ done, done <+: run → ∀ (uid : Uid) row,
      selectCard ((system ι crypto).after (Sys.start cards card) done).server.cards uid.toList =
        some row →
      (∀ i, (((system ι crypto).after (Sys.start cards card) done).reader i).busy = true →
        (((system ι crypto).after (Sys.start cards card) done).reader i).uid ≠ uid) →
      row.keyThisTime =
        (((system ι crypto).after (Sys.start cards card) done).card uid).toList := by
  intro done initial uid row found idle
  obtain ⟨rest, rfl⟩ := initial
  rw [Machine.along_append] at calm inTime
  have sync := (system ι crypto).after_invariant
    (fun s act sync met => Synchronised.next sync met.1 met.2) (synchronised_start fresh)
    ((Machine.along_and _).mpr ⟨calm.1, inTime.1⟩)
  -- A reader that is about to send the key would have the card in progress.
  refine (sync.stored uid row found).resolve_right fun ⟨i, sends, held⟩ => ?_
  exact idle i (by simp [Reader.busy, sends]) held

/-- The two cards hold the keys of their rows. -/
theorem firstKey_fresh : Fresh twoCards firstKey := by
  intro uid row found
  -- A row that is found is one of the two.
  have listed := List.mem_of_find?_eq_some found
  have named := selectCard_uid found
  simp only [twoCards, List.mem_cons, List.not_mem_nil, or_false] at listed
  rcases listed with rfl | rfl
  · rw [← show aliceUid = uid from Vector.toList_inj.mp named]
    rfl
  · rw [← show bobUid = uid from Vector.toList_inj.mp named]
    rfl

/-- After Bob's visit his card holds the key of his row. -/
theorem rotation_kept_bob :
    ((enrolledCard bob bobKey).rotate aliceKey).keyThisTime =
      (((system Unit Crypto.standard).after (Sys.start twoCards firstKey) bobVisit).card
        bobUid).toList := by
  -- The visit is one run, in which all conditions are met.
  have visit :
      (system Unit Crypto.standard).Along Calm (Sys.start twoCards firstKey) bobVisit ∧
        (system Unit Crypto.standard).Along ArrivesInTime (Sys.start twoCards firstKey) bobVisit ∧
          let last := (system Unit Crypto.standard).after (Sys.start twoCards firstKey) bobVisit
          selectCard last.server.cards bobUid.toList =
              some ((enrolledCard bob bobKey).rotate aliceKey) ∧
            ∀ i, (last.reader i).busy = true → (last.reader i).uid ≠ bobUid := by decide +kernel
  obtain ⟨calm, inTime, row, idle⟩ := visit
  exact rotation_kept Crypto.standard twoCards firstKey bobVisit firstKey_fresh calm inTime bobVisit
    List.prefix_rfl bobUid _ row idle

/-- Bob's grant clears the flag before Alice's new key arrives, and Alice gives up. -/
def overtakenVisit : List (Act Bool) :=
  [.tap false aliceUid, .connect false true, .write false (.delivered quietEnv), .read false 109] ++
    smoothVisit true bobUid (firstKey aliceUid) ++
      [.request (loginCall bob), .write true (.delivered quietEnv), .read true 82,
        .program false (firstKey bobUid) true, .write false (.delivered quietEnv), .read false 75,
        .request (failedLoginCall alice), .request (failedLoginCall alice),
        .write false (.delivered quietEnv), .read false 159]

/-- A new key that arrives after another reader's grant is lost. -/
theorem rotation_lost :
    ¬ ∀ (cards : Cards) (card : Uid → CardKey) (run : List (Act Bool)), Fresh cards card →
      (system Bool Crypto.standard).Along Calm (Sys.start cards card) run →
      ∀ done, done <+: run → ∀ (uid : Uid) row,
        selectCard ((system Bool Crypto.standard).after (Sys.start cards card) done).server.cards
          uid.toList = some row →
        (∀ i, (((system Bool Crypto.standard).after (Sys.start cards card) done).reader i).busy =
            true →
          (((system Bool Crypto.standard).after (Sys.start cards card) done).reader i).uid ≠ uid) →
        row.keyThisTime =
          (((system Bool Crypto.standard).after (Sys.start cards card) done).card uid).toList := by
  intro kept
  -- Alice's card holds the new key at the end, and her row still the old one.
  have visit :
      (system Bool Crypto.standard).Along Calm (Sys.start twoCards firstKey) overtakenVisit ∧
        let last := (system Bool Crypto.standard).after (Sys.start twoCards firstKey) overtakenVisit
        selectCard last.server.cards aliceUid.toList = some (enrolledCard alice aliceKey) ∧
          (∀ i, (last.reader i).busy = true → (last.reader i).uid ≠ aliceUid) ∧
            aliceKey ≠ (last.card aliceUid).toList := by decide +kernel
  obtain ⟨calm, row, idle, differs⟩ := visit
  exact differs (kept twoCards firstKey overtakenVisit firstKey_fresh calm overtakenVisit
    List.prefix_rfl aliceUid _ row idle)

end Rfid
