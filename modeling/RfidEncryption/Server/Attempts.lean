import RfidEncryption.Server.Identity

/-! Whether rejected logins ever keep the door shut. -/

namespace Rfid

open Reactive

section
variable (crypto : Crypto)

/-- A call for the door was answered 200 or a card accepted, which starts the count over. -/
def StartsOver (e : ServerStep) : Prop := Opened e ∨ ∃ uid, Accepted crypto uid e

instance : DecidablePred (StartsOver crypto) :=
  fun e => inferInstanceAs (Decidable (Opened e ∨ ∃ uid, Accepted crypto uid e))

/-- The logins rejected since the last 200 or the last accepted card, whichever is later. -/
def rejections (log : List ServerStep) : Nat :=
  howMany (Rejected crypto) (sinceLast (StartsOver crypto) log)

/--
Two rejected logins keep the door shut for whoever calls for it now.

Wherever two were counted in the past of this log, a card was accepted later.
-/
def LimitHolds (log : List ServerStep) : Prop :=
  ∀ later earlier, log = later ++ earlier → 2 ≤ rejections crypto earlier →
    ∃ e ∈ later, ∃ uid, Accepted crypto uid e

/--
A request that completes the two factors, or fails while they are complete, stays within the limit.
-/
def StaysWithinLimit (r : Session) (call : Call) : Prop :=
  (∀ uid, verdict crypto r.now call = .login uid → r.now.checker = true →
    rejections crypto r.log < 2) ∧
  (verdict crypto r.now call = .failure → r.now.passing = true → r.now.checker = true →
    rejections crypto r.log + 1 < 2)

/-- The latch starts its count over exactly when the server's log does. -/
theorem startsOver_entry (e : ServerStep) :
    Latch.FreshStart ((gateSimulation crypto).entry e) ↔ StartsOver crypto e :=
  or_congr (granted_entry crypto e) (card_entry crypto e)

/-- The latch counts as many failures as the server's log does. -/
theorem failures_record (r : Session) :
    Latch.failures ((gateSimulation crypto).record r).log = rejections crypto r.log := by
  -- The same entries start the count over, and the same are counted.
  simp only [Latch.failures, rejections, Simulation.record,
    sinceLast_map _ (startsOver_entry crypto), howMany_map _ (failure_entry crypto)]

/-- A request stays within the limit exactly when its verdict does at the latch. -/
theorem staysWithinLimit_record (r : Session) (call : Call) :
    Latch.StaysWithinLimit ((gateSimulation crypto).record r) (verdict crypto r.now call) ↔
      StaysWithinLimit crypto r call := by
  -- Each of the two conditions is about one kind of verdict.
  have counted := failures_record crypto r
  unfold StaysWithinLimit
  cases verdict crypto r.now call <;> simp [Latch.StaysWithinLimit, counted]

/-- Throughout a run, whoever could open the door is within the limit if every request stays so. -/
theorem withinLimit_iff (cards : Cards) (run : List Call) :
    (∀ done, done <+: run →
      ((server crypto).after (Server.start cards) done).passing = true →
      ((server crypto).after (Server.start cards) done).checker = true →
        rejections crypto ((server crypto).history (Server.start cards) done) < 2) ↔
      (server crypto).recorded.Along (StaysWithinLimit crypto) ⟨Server.start cards, []⟩ run := by
  -- The latch is within the limit as long as its events stay so.
  have latch := (gateSimulation crypto).recorded.throughout_iff_along
    (I := Latch.OpensWithinLimit) (P := Latch.OpensWithinLimit) (C := Latch.StaysWithinLimit)
    (fun _ held => held) Latch.opensWithinLimit_next Latch.opensWithinLimit_breaks
    (s := ⟨Server.start cards, []⟩) (fun both => absurd both.1 Bool.false_ne_true) run
  -- The conditions agree at every step.
  have conditions : (fun r call => Latch.StaysWithinLimit ((gateSimulation crypto).record r)
      (verdict crypto r.now call)) = StaysWithinLimit crypto := by
    funext r call
    exact propext (staysWithinLimit_record crypto r call)
  refine Iff.trans ?_ (latch.trans (by rw [← conditions]; rfl))
  refine forall_congr' fun done => imp_congr_right fun _ => ?_
  -- Flags and counts are those of the latch.
  have counted := failures_record crypto
    ((server crypto).recorded.after ⟨Server.start cards, []⟩ done)
  rw [Machine.recorded_after] at counted
  simp only [Latch.OpensWithinLimit, and_imp, gateSimulation, Simulation.recorded,
    Machine.recorded_after] at counted ⊢
  rw [counted]
  rfl

/-- A limit reached since the last card has been reached for good, unless the door opened. -/
theorem limit_or_opened {log earlier : List ServerStep} {later : List ServerStep}
    (split : log = later ++ earlier) (reached : 2 ≤ rejections crypto earlier)
    (noCard : ¬ ∃ e ∈ later, ∃ uid, Accepted crypto uid e) :
    2 ≤ rejections crypto log ∨ ∃ later' e between, later = later' ++ e :: between ∧ Opened e ∧
      2 ≤ rejections crypto (between ++ earlier) := by
  -- Entries that start nothing over can only add to the count.
  have grows : ∀ between : List ServerStep, (∀ e ∈ between, ¬ StartsOver crypto e) →
      2 ≤ rejections crypto (between ++ earlier) := by
    intro between free
    rw [rejections, sinceLast_append_of_forall_not free]
    exact reached.trans (howMany_le_append between)
  -- Without a card only an answer of 200 can start the count over.
  by_cases opened : ∃ e ∈ later, Opened e
  · -- Up to the first such answer nothing does.
    obtain ⟨later', e, between, rfl, isOpened, shut⟩ := exists_earliest opened
    refine .inr ⟨later', e, between, rfl, isOpened, grows between fun d member => ?_⟩
    intro resets
    rcases resets with isOpen | isCard
    · exact shut d member isOpen
    · exact noCard ⟨d, by simp [member], isCard⟩
  · rw [split]
    refine .inl (grows later fun d member => ?_)
    intro resets
    rcases resets with isOpen | isCard
    · exact opened ⟨d, member, isOpen⟩
    · exact noCard ⟨d, member, isCard⟩

/--
Two rejected logins keep the door shut throughout a run exactly when every request stays within
the limit.

The counter is consulted only where the door is not opened anyway.
So a login that succeeds after two rejected ones completes the factors all the same.
-/
theorem limit_holds_iff (cards : Cards) (run : List Call) :
    (∀ done, done <+: run → ∀ call : Call, call.IsOpen →
      ((server crypto).answer ((server crypto).after (Server.start cards) done) call).status = .ok →
        LimitHolds crypto ((server crypto).history (Server.start cards) done)) ↔
      (server crypto).recorded.Along (StaysWithinLimit crypto) ⟨Server.start cards, []⟩ run := by
  rw [← withinLimit_iff]
  constructor
  · intro holds done initial passing checker
    by_contra many
    -- A limit reached just now would need a card accepted since just now.
    obtain ⟨e, none, -⟩ := holds done initial (openCall quietEnv) (openCall_isOpen _)
      ((open_ok crypto _ _ (openCall_isOpen _)).mpr ⟨passing, checker⟩) [] _ rfl
      (Nat.not_lt.mp many)
    exact absurd none (List.not_mem_nil)
  · intro within done initial call asked ok later earlier split reached
    by_contra noCard
    -- The door could be opened, so the count since the last start is small.
    have flags := (open_ok crypto _ call asked).mp ok
    rcases limit_or_opened crypto split reached noCard with many |
      ⟨later', e, between, rfl, opened, many⟩
    · exact absurd (within done initial flags.1 flags.2) (Nat.not_lt.mpr many)
    · -- The first call answered 200 after the limit was reached should not have been.
      rw [List.append_assoc, List.cons_append] at split
      obtain ⟨first, i, rest, rfl, before, rfl⟩ := (server crypto).history_split split
      have both := (open_ok crypto _ i opened.1).mp opened.2
      have few := within first ((List.prefix_append _ _).trans initial) both.1 both.2
      rw [before] at few
      exact absurd few (Nat.not_lt.mpr many)

/-- A login that succeeds after two rejected ones opens the door. -/
theorem opens_beyond_limit :
    ¬ ∀ (cards : Cards) (run done : List Call), done <+: run → ∀ call : Call, call.IsOpen →
      ((server Crypto.standard).answer
        ((server Crypto.standard).after (Server.start cards) done) call).status = .ok →
      LimitHolds Crypto.standard
        ((server Crypto.standard).history (Server.start cards) done) := by
  intro holds
  -- Bob presents his card, fails to log in twice, and then succeeds.
  let failed := [uidKeyCall quietEnv bob bobKey, failedLoginCall bob, failedLoginCall bob]
  let login := (server Crypto.standard).entry
    ((server Crypto.standard).after (Server.start twoCards) failed) (loginCall bob)
  have visit : ((server Crypto.standard).answer ((server Crypto.standard).after
        (Server.start twoCards) (failed ++ [loginCall bob])) (openCall quietEnv)).status = .ok ∧
      2 ≤ rejections Crypto.standard
        ((server Crypto.standard).history (Server.start twoCards) failed) ∧
      verdict Crypto.standard login.before login.input = .login bob := by decide +kernel
  obtain ⟨opens, many, passes⟩ := visit
  -- The only step behind the two failures is the login, which is no card.
  obtain ⟨e, only, uid, accepted⟩ := holds twoCards _ (failed ++ [loginCall bob]) List.prefix_rfl
    (openCall quietEnv) (openCall_isOpen _) opens [login] _
    ((server Crypto.standard).history_snoc _ _ _) many
  rw [List.mem_singleton.mp only, Accepted, passes] at accepted
  cases accepted

end

end Rfid
