import RfidEncryption.System.Network
import RfidEncryption.Server.Store

/-! What one step of the system does to the key on a card and to the row that stores it. -/

namespace Rfid

open Reactive

variable {ι : Type*} [DecidableEq ι]

/-- Some reader is about to send a card's new key. -/
def AboutToSend (s : Sys ι) (uid : Uid) : Prop :=
  ∃ i, (s.reader i).stage = .sendNewCardKey ∧ (s.reader i).uid = uid

/-- The key of a card's row is the one on the card, or a reader is about to send that. -/
def KeyStored (s : Sys ι) (uid : Uid) : Prop :=
  ∀ row, selectCard s.server.cards uid.toList = some row →
    row.keyThisTime = (s.card uid).toList ∨ AboutToSend s uid

/-- Every reader about to send a key sends the one on its card. -/
def SendsWritten (s : Sys ι) : Prop :=
  ∀ i, (s.reader i).stage = .sendNewCardKey → (s.reader i).randomBytes = s.card (s.reader i).uid

/-- The row of a reader's card holds the key the reader is about to send. -/
def AlreadyStored (s : Sys ι) (i : ι) : Prop :=
  ∀ row ∈ selectCard s.server.cards (s.reader i).uid.toList,
    row.keyThisTime = (s.reader i).randomBytes.toList

instance (s : Sys ι) (i : ι) : Decidable (AlreadyStored s i) :=
  inferInstanceAs (Decidable (∀ row ∈ _, _ = _))

/-- A write reaches the server. -/
def Fate.Delivered : Fate → Prop
  | .delivered _ => True
  | .lost | .failed => False

instance : DecidablePred Fate.Delivered
  | .delivered _ => inferInstanceAs (Decidable True)
  | .lost | .failed => inferInstanceAs (Decidable False)

/-- Other clients only log in, and the cards presented and the database are in order. -/
structure Ordinary (s : Sys ι) (act : Act ι) : Prop where
  logins : ∀ call, act = .request call → call.json.map Request.type = some "Password"
  enrolled : ∀ i fate, act = .write i fate → (s.reader i).stage = .sendUidKey →
    (selectCard s.server.cards (s.reader i).uid.toList).isSome = true
  works : ∀ i env, act = .write i (.delivered env) → env.execFails = false

section
variable {crypto : Crypto} {s : Sys ι} {act : Act ι}

/-- A row found for a card is not lost. -/
theorem select_isSome_next {v : Bytes} (found : (selectCard s.server.cards v).isSome = true) :
    (selectCard ((system ι crypto).next s act).server.cards v).isSome = true := by
  -- A request adds rows or rotates keys, and removes nothing.
  rcases server_cases crypto s act with ⟨-, same⟩ | ⟨call, -, served, -⟩
  · rwa [same]
  · rw [served, serve_select]
    simp [found]

/-- Only a new key that is sent changes the rows. -/
theorem select_next (ordinary : Ordinary s act)
    (unsent : ∀ i fate, act = .write i fate → (s.reader i).stage ≠ .sendNewCardKey) (v : Bytes) :
    selectCard ((system ι crypto).next s act).server.cards v = selectCard s.server.cards v := by
  -- Logins and calls for the door leave the rows alone, and a known card is not enrolled.
  rcases server_cases crypto s act with ⟨-, same⟩ | ⟨call, -, served, rfl | ⟨i, env, rfl, asks⟩⟩
  · rw [same]
  · have login := ordinary.logins call rfl
    rw [served]
    exact select_untouched crypto s.server (newKey_password login)
      (by simp [presents_password login]) v
  · rw [served]
    rcases Reader.request_cases asks with ⟨stage, rfl⟩ | ⟨stage, rfl⟩ | ⟨stage, rfl⟩
    · refine select_untouched crypto s.server (newKey_uidKeyCall ..) (fun pair presented => ?_) v
      rw [presents_uidKeyCall] at presented
      rw [← Option.some.inj presented]
      exact ordinary.enrolled i _ rfl stage
    · exact absurd stage (unsent i _ rfl)
    · exact select_untouched crypto s.server (newKey_openCall _) (by simp) v

/-- A reader about to send a key still sends the one on its card. -/
theorem SendsWritten.next (written : SendsWritten s)
    (exclusive : ∀ i j, (s.reader i).busy = true → (s.reader j).busy = true →
      (s.reader i).uid = (s.reader j).uid → i = j)
    (writes : ∀ i randomBytes done, act = .program i randomBytes done → done = true) :
    SendsWritten ((system ι crypto).next s act) := by
  intro i sends
  -- The reader has written its card in this step, or stood there before.
  rcases (moves crypto s act i).sends sends with ⟨done, program, ready, kept⟩ | same
  · -- The random bytes were written to the card just now.
    rw [kept]
    generalize (((system ι crypto).next s act).reader i).randomBytes = randomBytes at program
    subst program
    obtain rfl : done = true := writes _ _ _ rfl
    rw [card_program crypto s ready, Function.update_self]
  · rw [same] at sends ⊢
    rcases card_cases crypto s act with untouched | ⟨j, randomBytes, rfl, ready, updated⟩
    · rw [untouched]
      exact written i sends
    · -- No other reader holds this card.
      have other : (s.reader i).uid ≠ (s.reader j).uid := by
        intro at_once
        have equal := exclusive i j (by simp [Reader.busy, sends])
          (by simp [Reader.busy, ready]) at_once
        rw [equal, ready] at sends
        exact Stage.noConfusion sends
      rw [updated, Function.update_of_ne other]
      exact written i sends

variable {uid : Uid}

/-- A reader about to send a card's new key stays so until it writes that request. -/
theorem AboutToSend.next (sending : AboutToSend s uid)
    (unsent : ∀ i fate, act = .write i fate → (s.reader i).stage = .sendNewCardKey →
      (s.reader i).uid ≠ uid) : AboutToSend ((system ι crypto).next s act) uid := by
  -- The reader that is about to send does nothing else first.
  obtain ⟨i, sends, held⟩ := sending
  refine ⟨i, ?_⟩
  rcases (moves crypto s act i).unsent sends with ⟨fate, writes⟩ | same
  · exact absurd held (unsent i fate writes sends)
  · rw [same]
    exact ⟨sends, held⟩

/-- A key that is sent is in its row afterwards if it arrives in a card session, or was there. -/
theorem select_sent {i : ι} {fate : Fate} (stage : (s.reader i).stage = .sendNewCardKey)
    (works : ∀ env, fate = .delivered env → env.execFails = false)
    (arrives : fate.Delivered ∧ s.server.checker = true ∨ AlreadyStored s i) {v : Bytes}
    {row : Card}
    (found : selectCard ((system ι crypto).next s (.write i fate)).server.cards v = some row) :
    ∃ old, selectCard s.server.cards v = some old ∧
      row.keyThisTime = if (s.reader i).uid.toList = v then (s.reader i).randomBytes.toList
        else old.keyThisTime := by
  -- A key that was there before stays if the rows do.
  have kept : selectCard s.server.cards v = some row → AlreadyStored s i →
      row.keyThisTime = if (s.reader i).uid.toList = v then (s.reader i).randomBytes.toList
        else row.keyThisTime := by
    intro before already
    split_ifs with own
    · exact already row (by rw [own]; exact before)
    · rfl
  -- The request is served or it is not.
  rcases server_cases crypto s (.write i fate) with ⟨silent, same⟩ |
    ⟨call, -, served, request | ⟨j, env, writes, asks⟩⟩
  · -- Nothing was served, so nothing was delivered.
    have missing : ¬ fate.Delivered := by
      intro delivered
      cases fate with
      | delivered env => simp [Machine.answer, system, step, Reader.request, stage] at silent
      | lost | failed => exact delivered
    rw [same] at found
    exact ⟨row, found, kept found (arrives.resolve_left fun both => missing both.1)⟩
  · exact absurd request (by simp)
  · obtain ⟨rfl, rfl⟩ := Act.write.inj writes
    have new := newKey_newCardKeyCall env (s.reader i).uid.toList (s.reader i).randomBytes.toList
    obtain rfl : call = newCardKeyCall env _ _ := by
      simpa [Reader.request, stage, eq_comm] using asks
    rw [served] at found
    -- The server stores the key under its flag, and drops it otherwise.
    by_cases permitted : s.server.checker = true
    · rw [select_installed crypto s.server new permitted (works env rfl),
        Option.map_eq_some_iff] at found
      obtain ⟨old, before, rfl⟩ := found
      refine ⟨old, before, ?_⟩
      rw [selectCard_uid before]
      by_cases own : v = (s.reader i).uid.toList
      · rw [if_pos own, if_pos own.symm]
        rfl
      · rw [if_neg own, if_neg (Ne.symm own)]
    · rw [select_dropped crypto s.server new (by simpa using permitted)] at found
      exact ⟨row, found, kept found (arrives.resolve_left fun both => permitted both.2)⟩

/-- The key of a card stays stored, or about to be sent, while no new key is lost. -/
theorem KeyStored.next (stored : KeyStored s uid) (written : SendsWritten s)
    (ordinary : Ordinary s act)
    (arrives : ∀ i fate, act = .write i fate → (s.reader i).stage = .sendNewCardKey →
      fate.Delivered ∧ s.server.checker = true ∨ AlreadyStored s i) :
    KeyStored ((system ι crypto).next s act) uid := by
  -- A step writes to a card, sends a new key, or does neither.
  rcases card_cases crypto s act with unwritten | ⟨j, randomBytes, rfl, ready, updated⟩
  · by_cases sent : ∃ i fate, act = .write i fate ∧ (s.reader i).stage = .sendNewCardKey
    · obtain ⟨i, fate, rfl, stage⟩ := sent
      intro row found
      obtain ⟨old, before, key⟩ := select_sent stage
        (fun env same => ordinary.works i env (by rw [same])) (arrives i fate rfl stage) found
      rw [key, unwritten]
      by_cases own : (s.reader i).uid = uid
      · -- The row holds the key that was sent, which is the one on the card.
        rw [if_pos (congrArg Vector.toList own), written i stage, own]
        exact .inl rfl
      · -- Another card's row and key are as they were.
        rw [if_neg fun same => own (Vector.toList_inj.mp same)]
        exact (stored old before).imp id fun sending =>
          sending.next fun j fate writes _ => (Act.write.inj writes).1 ▸ own
    · have unsent : ∀ i fate, act = .write i fate → (s.reader i).stage ≠ .sendNewCardKey :=
        fun i fate writes sends => sent ⟨i, fate, writes, sends⟩
      intro row found
      rw [select_next ordinary unsent] at found
      rw [unwritten]
      exact (stored row found).imp id fun sending =>
        sending.next fun i fate writes sends => absurd sends (unsent i fate writes)
  · -- The card that is written is about to have its key sent.
    intro row found
    rw [select_next ordinary (by simp)] at found
    by_cases own : uid = (s.reader j).uid
    · refine .inr ⟨j, ?_⟩
      rw [reader_program crypto s ready]
      exact ⟨by simp [Reader.wroteCard, cardWriteOnBlock], own.symm⟩
    · rw [updated, Function.update_of_ne own]
      exact (stored row found).imp id fun sending => sending.next (by simp)

end

end Rfid
