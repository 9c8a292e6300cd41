import RfidEncryption.System.Network
import RfidEncryption.Server.Clients

/-! What the log of a run of the system says about the sessions of its readers. -/

namespace Rfid

open Reactive

variable {ι : Type*} [DecidableEq ι]

/-- One step of a run of the system. -/
abbrev SysStep (ι : Type*) := Entry (Sys ι) (Act ι) (Option ServerStep)

/-- The system with the log of its steps. -/
abbrev Observed (ι : Type*) := Recorded (Sys ι) (Act ι) (Option ServerStep)

/-- A card is presented to a reader that is free, which starts a session there. -/
def Taps (i : ι) (e : SysStep ι) : Prop :=
  (∃ uid, e.input = .tap i uid) ∧ (e.before.reader i).busy = false

instance (i : ι) (act : Act ι) : Decidable (∃ uid, act = .tap i uid) :=
  match act with
  | .tap j uid => decidable_of_iff (j = i) (by simp)
  | .request _ | .connect _ _ | .write _ _ | .read _ _ | .readFails _ | .program _ _ _ =>
    .isFalse (by simp)

instance (i : ι) : DecidablePred (Taps i) :=
  fun e => inferInstanceAs (Decidable ((∃ uid, e.input = .tap i uid) ∧ _))

/-- The request of a reader that is served in a step. -/
def servedTo (i : ι) (e : SysStep ι) : Option ServerStep :=
  match e.input with
  | .write j _ => if j = i then e.answer else none
  | _ => none

/-- The steps taken since a reader's present session began. -/
def session (i : ι) (log : List (SysStep ι)) : List (SysStep ι) := sinceLast (Taps i) log

/-- A call for the door was answered 200 on a reader's present connection. -/
def DoorOpened (i : ι) (log : List (SysStep ι)) : Prop :=
  ∃ e ∈ session i log, ∃ served ∈ servedTo i e, Opened served

instance (i : ι) : DecidablePred (DoorOpened i) :=
  fun log => inferInstanceAs (Decidable (∃ e ∈ session i log, ∃ served ∈ servedTo i e, _))

section
variable {i : ι} {s : Sys ι} {act : Act ι} {answer : Option ServerStep}

omit [DecidableEq ι] in
/-- A step in which a reader stays as it is begins no session there. -/
theorem not_taps_of_stays (seen : ∀ uid, act = .tap i uid → (s.reader i).busy = true) :
    ¬ Taps i ⟨s, act, answer⟩ := by
  -- A card presented to a busy reader begins nothing.
  intro taps
  obtain ⟨⟨uid, same⟩, free⟩ := taps
  simp [seen uid same] at free

/-- A step in which a reader stays as it is serves nothing of it. -/
theorem servedTo_of_stays (silent : ∀ fate, act = .write i fate → answer = none) :
    servedTo i ⟨s, act, answer⟩ = none := by
  -- Only a write of the reader is served to it.
  unfold servedTo
  split
  · rename_i j fate same
    split_ifs with own
    · exact silent fate (by rw [← own]; exact same)
    · rfl
  · rfl

end

section
variable {i : ι} {e : SysStep ι} {log : List (SysStep ι)}

/-- Any other step belongs to the present session. -/
theorem session_pass (passed : ¬ Taps i e) : session i (e :: log) = e :: session i log :=
  sinceLast_pass passed

/-- A step that serves nothing of the reader does not open the door. -/
theorem doorOpened_silent (passed : ¬ Taps i e) (silent : servedTo i e = none) :
    DoorOpened i (e :: log) ↔ DoorOpened i log := by
  -- The step is part of the session and serves nothing.
  simp [DoorOpened, session_pass passed, silent]

/-- A served request opens the door when it is a call for it answered 200. -/
theorem doorOpened_served {served : ServerStep} (passed : ¬ Taps i e)
    (serves : servedTo i e = some served) :
    DoorOpened i (e :: log) ↔ Opened served ∨ DoorOpened i log := by
  -- The step is part of the session, before the others.
  simp [DoorOpened, session_pass passed, serves]

end

/-- The card of a reader's session was accepted. -/
def CardAccepted (crypto : Crypto) (i : ι) (e : SysStep ι) : Prop :=
  ∃ served ∈ servedTo i e, Accepted crypto (e.before.reader i).uid.toList served

instance (crypto : Crypto) (i : ι) : DecidablePred (CardAccepted crypto i) :=
  fun e => inferInstanceAs (Decidable (∃ served ∈ servedTo i e, _))

/-- A user logged in, from wherever. -/
def LoggedIn (crypto : Crypto) (uid : Bytes) (e : SysStep ι) : Prop :=
  ∃ served ∈ e.answer, Passed crypto uid served

instance (crypto : Crypto) (uid : Bytes) : DecidablePred (LoggedIn (ι := ι) crypto uid) :=
  fun e => inferInstanceAs (Decidable (∃ served ∈ e.answer, _))

/-- A user logged in after the card of a reader was accepted. -/
def LoginAfterCard (crypto : Crypto) (i : ι) (uid : Bytes) : List (SysStep ι) → Prop
  | [] => False
  -- Either this step is the login, after an accepted card, or an earlier one is.
  | e :: log =>
    (LoggedIn crypto uid e ∧ ∃ d ∈ log, CardAccepted crypto i d) ∨ LoginAfterCard crypto i uid log

instance decidableLoginAfterCard (crypto : Crypto) (i : ι) (uid : Bytes) :
    ∀ log : List (SysStep ι), Decidable (LoginAfterCard crypto i uid log)
  | [] => inferInstanceAs (Decidable False)
  | _ :: log =>
    have := decidableLoginAfterCard crypto i uid log
    inferInstanceAs (Decidable (_ ∨ _))

/-- The user of a reader's card logged in after the card was accepted in the present session. -/
def OwnLogin (crypto : Crypto) (i : ι) (uid : Bytes) (log : List (SysStep ι)) : Prop :=
  LoginAfterCard crypto i uid (session i log)

instance (crypto : Crypto) (i : ι) (uid : Bytes) : DecidablePred (OwnLogin (ι := ι) crypto i uid) :=
  fun _ => decidableLoginAfterCard ..

/-- A login stays made until the next session begins. -/
theorem OwnLogin.later {crypto : Crypto} {i : ι} {uid : Bytes} {e : SysStep ι}
    {log : List (SysStep ι)} (own : OwnLogin crypto i uid log) (passed : ¬ Taps i e) :
    OwnLogin crypto i uid (e :: log) := by
  -- The step is added in front of the same session.
  rw [OwnLogin, session_pass passed]
  exact .inr own

/-- Other clients only log in, nothing fails, and every read returns one whole reply. -/
def Orderly (s : Sys ι) : Act ι → Prop
  | .request call => call.json.map Request.type = some "Password"
  | .tap _ _ => True
  | .connect _ tls => tls = true
  | .write _ fate =>
    match fate with
    | .delivered _ => True
    | _ => False
  | .read i count => count = (s.reader i).unread.length
  | .readFails _ => False
  | .program _ _ written => written = true

instance (s : Sys ι) (act : Act ι) : Decidable (Orderly s act) :=
  match act with
  | .request call => inferInstanceAs (Decidable (call.json.map Request.type = some "Password"))
  | .tap _ _ => inferInstanceAs (Decidable True)
  | .connect _ tls => inferInstanceAs (Decidable (tls = true))
  | .write _ (.delivered _) => inferInstanceAs (Decidable True)
  | .write _ .lost | .write _ .failed | .readFails _ => inferInstanceAs (Decidable False)
  | .read i count => inferInstanceAs (Decidable (count = (s.reader i).unread.length))
  | .program _ _ written => inferInstanceAs (Decidable (written = true))

/-- A session up to its first call for the door in which nothing goes wrong. -/
def smoothVisit (i : ι) (uid : Uid) (newKey : CardKey) : List (Act ι) :=
  [.tap i uid, .connect i true, .write i (.delivered quietEnv), .read i 109,
    .program i newKey true, .write i (.delivered quietEnv), .read i 109]

/-- Bob's visit to a single reader. -/
def bobVisit : List (Act Unit) :=
  smoothVisit () bobUid (firstKey aliceUid) ++
    [.request (loginCall bob), .write () (.delivered quietEnv), .read () 82]

end Rfid
