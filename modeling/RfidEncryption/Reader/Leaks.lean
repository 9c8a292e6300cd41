import RfidEncryption.Device.Heap
import RfidEncryption.Reader.Source

/-! The memory `https_request` takes, and what it never gives back. -/

namespace Rfid

open Device

/-- A block in use: its address, and what it was handed out for. -/
abbrev Piece := Nat × EspBlock

/-- The session of the first connection. -/
def savedPieces : Option Nat → Multiset Piece
  | none => 0
  | some session => {(session, .clientSession)}

namespace Esp

/-- What each call does with memory. -/
def allocation : Allocation Esp Piece where
  uses
    | .printUnformatted _ object address => {(address, object)}
    | .flashReader block address => {(address, block)}
    | .connHttpNew crt key saved => {(crt, .crt)} + ({(key, .key)} + savedPieces saved)
    | .getClientSession tls => {(tls, .tls)}
    | .connWrite _ tls _ => {(tls, .tls)}
    | .connRead tls => {(tls, .tls)}
    | _ => 0
  releases
    | .free block address => {(address, block)}
    | _ => 0
  hands
    | .malloc block, address => {(address, block)}
    | .printUnformatted text _ _, address => {(address, text)}
    | .connHttpNew _ _ _, some tls => {(tls, .tls)}
    | .getClientSession _, session => savedPieces session
    | _, _ => 0

/-- A request was written, or at least attempted. -/
def writes (buffer : Buffer) : Event Esp → Bool
  | ⟨.connWrite b _ _, _⟩ => b = buffer
  | _ => false

/-- A request could not be written. -/
def unwritten (buffer : Buffer) : Event Esp → Bool
  | ⟨.connWrite b _ _, ret⟩ => b = buffer && !ret
  | _ => false

/-- The blocks that are still there when all sessions are over. -/
def lost (events : List (Event Esp)) : EspBlock → Nat
  -- Neither way out of these writes frees everything.
  | .jsonData => events.countP (unwritten .request)
  | .newKeyData => events.countP (writes .newKeyRequest)
  | .tls => events.countP (unwritten .newKeyRequest)
  | _ => 0

/-- How many blocks of a heap are for one purpose. -/
def live (heap : Multiset Piece) (block : EspBlock) : Nat :=
  heap.countP fun piece => piece.2 = block

@[simp] theorem live_zero (block : EspBlock) : live 0 block = 0 := rfl

@[simp] theorem live_cons (address : Nat) (owner : EspBlock) (heap : Multiset Piece)
    (block : EspBlock) :
    live ((address, owner) ::ₘ heap) block = live heap block + if owner = block then 1 else 0 :=
  Multiset.countP_cons ..

@[simp] theorem live_singleton (address : Nat) (owner block : EspBlock) :
    live {(address, owner)} block = if owner = block then 1 else 0 := by
  rw [← Multiset.cons_zero, live_cons, live_zero, zero_add]

@[simp] theorem live_add (left right : Multiset Piece) (block : EspBlock) :
    live (left + right) block = live left block + live right block :=
  Multiset.countP_add ..

/-- The ledger: the blocks in use, and what was called so far. -/
abbrev ledger : Contract Esp (Multiset Piece × List (Event Esp)) := allocation.contract.recorded

/-- Some blocks are in use, and the others in use are those that were lost. -/
def Owns (held : Multiset Piece) (s : Multiset Piece × List (Event Esp)) : Prop :=
  ∃ others, s.1 = held + others ∧ ∀ block, live others block = lost s.2 block

/-- Only a request that is written can lose a block. -/
theorem lost_cons {c : EspCall} {answer : Esp.Answer c} {past : List (Event Esp)}
    (other : ∀ buffer tls text, c ≠ .connWrite buffer tls text) :
    lost (⟨c, answer⟩ :: past) = lost past := by
  funext block
  cases c with
  | connWrite buffer tls text => exact absurd rfl (other buffer tls text)
  | _ => cases block <;> simp [lost, writes, unwritten]

section
variable {α : Type} {c : EspCall} {held kept gone : Multiset Piece}
  {s : Multiset Piece × List (Event Esp)} {Q : α → Multiset Piece × List (Event Esp) → Prop}
  {f : Esp.Answer c → Program Esp α}

/-- The order in which blocks are listed makes no difference. -/
theorem Owns.of_eq {held' : Multiset Piece} (owns : Owns held s) (same : held = held') :
    Owns held' s := same ▸ owns

/-- After a call, what it has released is gone, and so is what it has lost. -/
theorem Owns.step {answer : Esp.Answer c} (owns : Owns (allocation.releases c + kept) s)
    (gives : allocation.hands c answer + kept = gone + held)
    (counts : ∀ block, lost (⟨c, answer⟩ :: s.2) block = lost s.2 block + live gone block) :
    Owns held (ledger.step s c answer) := by
  obtain ⟨others, heap, same⟩ := owns
  -- What is lost joins the others that nothing will free.
  refine ⟨gone + others, ?_, fun block => ?_⟩
  · rw [Contract.recorded_step, heap, Allocation.step_part, gives]
    exact add_right_comm gone held others |>.trans (add_comm _ _)
  · rw [Contract.recorded_step, counts, live_add, same, add_comm]

/-- A call may be made while what it uses is there. -/
theorem meets_call (used : allocation.uses c ≤ kept)
    (owns : Owns (allocation.releases c + kept) s)
    (rest : ∀ answer, Program.Meets ledger Q (f answer) (ledger.step s c answer)) :
    Program.Meets ledger Q (call c >>= f) s := by
  -- The other blocks play no part in it.
  obtain ⟨others, heap, -⟩ := owns
  refine Program.meets_command_bind.mpr ⟨?_, rest⟩
  change allocation.contract.demand s.1 c
  rw [heap]
  exact Allocation.demand_of_part used others

/-- A call that neither releases nor loses anything adds what it hands out. -/
theorem meets_use (used : allocation.uses c ≤ held) (keeps : allocation.releases c = 0)
    (other : ∀ buffer tls text, c ≠ .connWrite buffer tls text) (owns : Owns held s)
    (rest : ∀ answer s', Owns (allocation.hands c answer + held) s' →
      Program.Meets ledger Q (f answer) s') :
    Program.Meets ledger Q (call c >>= f) s := by
  have same : held = allocation.releases c + held := by rw [keeps, zero_add]
  refine meets_call used (owns.of_eq same) fun answer => rest answer _ ?_
  refine (owns.of_eq same).step (zero_add _).symm fun block => ?_
  rw [lost_cons other]
  rfl

/-- A block is freed once. -/
theorem meets_free {block : EspBlock} {address : Nat} {f : Unit → Program Esp α}
    (owns : Owns ({(address, block)} + kept) s)
    (rest : ∀ s', Owns kept s' → Program.Meets ledger Q (f ()) s') :
    Program.Meets ledger Q (call (.free block address) >>= f) s := by
  refine meets_call (Multiset.zero_le kept) owns fun _ => rest _ ?_
  have nothing : allocation.hands (.free block address) () + kept = 0 + kept := rfl
  refine owns.step nothing fun block => ?_
  rw [lost_cons (by simp)]
  rfl

end

section
variable {α : Type} {tls : Nat} {text : Bytes} {rest held : Multiset Piece}
  {s : Multiset Piece × List (Event Esp)} {Q : α → Multiset Piece × List (Event Esp) → Prop}
  {f : Bool → Program Esp α}

/-- A request that is written may lose some of the blocks in use. -/
theorem meets_write {buffer : Buffer} (owns : Owns held s) (used : {(tls, .tls)} ≤ held)
    (gone left : Bool → Multiset Piece) (splits : ∀ ret, held = gone ret + left ret)
    (counts : ∀ ret block, lost (⟨.connWrite buffer tls text, ret⟩ :: s.2) block =
      lost s.2 block + live (gone ret) block)
    (next : ∀ ret s', Owns (left ret) s' → Program.Meets ledger Q (f ret) s') :
    Program.Meets ledger Q (call (.connWrite buffer tls text) >>= f) s := by
  have same : held = allocation.releases (.connWrite buffer tls text) + held := (zero_add _).symm
  refine meets_call used (owns.of_eq same) fun ret => next ret _ ?_
  exact (owns.of_eq same).step ((zero_add _).trans (splits ret)) (counts ret)

/-- The connection is in use as long as its block is. -/
theorem tls_le (pieces : Multiset Piece) : {(tls, .tls)} ≤ pieces + ({(tls, .tls)} + rest) :=
  (Multiset.le_add_right _ _).trans (Multiset.le_add_left _ _)

/-- The request that names the card keeps its text when it could not be written. -/
theorem meets_request {jsonData : Nat}
    (owns : Owns ({(jsonData, .jsonData)} + ({(tls, .tls)} + rest)) s)
    (done : ∀ s', Owns ({(jsonData, .jsonData)} + ({(tls, .tls)} + rest)) s' →
      Program.Meets ledger Q (f true) s')
    (failed : ∀ s', Owns ({(tls, .tls)} + rest) s' → Program.Meets ledger Q (f false) s') :
    Program.Meets ledger Q (call (.connWrite .request tls text) >>= f) s := by
  refine meets_write owns (tls_le _) (fun ret => if ret then 0 else {(jsonData, .jsonData)})
    (fun ret => (if ret then {(jsonData, .jsonData)} else 0) + ({(tls, .tls)} + rest)) ?_ ?_ ?_
  · intro ret
    cases ret <;> simp
  · intro ret block
    cases ret <;> cases block <;> simp [lost, writes, unwritten]
  · intro ret s' owns
    cases ret with
    | true => exact done s' owns
    | false => exact failed s' (owns.of_eq (zero_add _))

/-- The request that tells of a new key always keeps its text, and the connection if it fails. -/
theorem meets_newKeyRequest {newKeyData root2 : Nat}
    (owns : Owns ({(newKeyData, .newKeyData)} + ({(root2, .root2)} + ({(tls, .tls)} + rest))) s)
    (done : ∀ s', Owns ({(root2, .root2)} + ({(tls, .tls)} + rest)) s' →
      Program.Meets ledger Q (f true) s')
    (failed : ∀ s', Owns ({(root2, .root2)} + rest) s' → Program.Meets ledger Q (f false) s') :
    Program.Meets ledger Q (call (.connWrite .newKeyRequest tls text) >>= f) s := by
  have used : {(tls, .tls)} ≤
      ({(newKeyData, .newKeyData)} + ({(root2, .root2)} + ({(tls, .tls)} + rest)) :
        Multiset Piece) := (tls_le _).trans (Multiset.le_add_left _ _)
  refine meets_write owns used
    (fun ret => {(newKeyData, .newKeyData)} + (if ret then 0 else {(tls, .tls)}))
    (fun ret => {(root2, .root2)} + ((if ret then {(tls, .tls)} else 0) + rest)) ?_ ?_ ?_
  · intro ret
    cases ret
    · simp only [Bool.false_eq_true, if_false, zero_add, add_assoc]
      exact congrArg _ (add_left_comm _ _ _)
    · simp
  · intro ret block
    cases ret <;> cases block <;> simp [lost, writes, unwritten]
  · intro ret s' owns
    cases ret with
    | true => exact done s' owns
    | false => exact failed s' (owns.of_eq (by simp))

/-- A request for the door loses nothing. -/
theorem meets_heartbeat (owns : Owns ({(tls, .tls)} + rest) s)
    (next : ∀ ret s', Owns ({(tls, .tls)} + rest) s' → Program.Meets ledger Q (f ret) s') :
    Program.Meets ledger Q (call (.connWrite .heartbeatRequest tls text) >>= f) s := by
  refine meets_write owns (Multiset.le_add_right _ _) (fun _ => 0) (fun _ => {(tls, .tls)} + rest)
    (fun _ => (zero_add _).symm) (fun ret block => ?_) next
  cases ret <;> cases block <;> simp [lost, writes, unwritten]

end

section
variable {tls : Nat} {rest : Multiset Piece} {s : Multiset Piece × List (Event Esp)}

/-- What is read, if anything, changes no block. -/
theorem meets_read {α : Type} {Q : α → Multiset Piece × List (Event Esp) → Prop}
    {f : Option Chunk → Program Esp α} (owns : Owns ({(tls, .tls)} + rest) s)
    (next : ∀ buf s', Owns ({(tls, .tls)} + rest) s' → Program.Meets ledger Q (f buf) s') :
    Program.Meets ledger Q (call (.connRead tls) >>= f) s :=
  meets_use (Multiset.le_add_right _ _) rfl (by simp) owns fun buf s' owns =>
    next buf s' (owns.of_eq (zero_add _))

/-- Random bytes take no memory. -/
theorem generateRandomHex_owns (length : Nat) {held : Multiset Piece} (owns : Owns held s) :
    Program.Meets ledger (fun _ s' => Owns held s') (generateRandomHex length) s := by
  induction length with
  | zero => exact owns
  | succ length ih =>
    refine ih.bind fun buffer s' owns => ?_
    exact meets_use (Multiset.zero_le _) rfl (by simp) owns fun _ s'' owns =>
      owns.of_eq (zero_add _)

/-- The loop for the door takes no memory. -/
theorem sendOpen_owns (passes : Nat) (owns : Owns ({(tls, .tls)} + rest) s) :
    Program.Meets ledger (fun _ s' => Owns ({(tls, .tls)} + rest) s') (sendOpen tls passes) s := by
  induction passes generalizing s with
  | zero => trivial
  | succ passes ih =>
    refine meets_heartbeat owns fun _ s' owns => ?_
    refine meets_read owns fun buf s' owns => ?_
    cases buf with
    | none => exact owns
    | some buf =>
      dsimp only
      split_ifs
      · exact owns
      · exact owns
      · refine meets_use (Multiset.zero_le _) rfl (by simp) owns fun _ s' owns => ?_
        exact ih (owns.of_eq (zero_add _))

/-- The connection is closed on both ways behind the reply to the new key. -/
theorem recvNewCardKey_owns (passes : Nat) (owns : Owns ({(tls, .tls)} + rest) s) :
    Program.Meets ledger (fun _ s' => Owns rest s') (recvNewCardKey passes tls) s := by
  refine meets_read owns fun buf s' owns => ?_
  split_ifs
  · exact meets_free owns fun _ owns => owns
  · refine (sendOpen_owns passes owns).bind fun _ s' owns => ?_
    exact meets_free owns fun _ owns => owns

/-- The new key is told to the server. -/
theorem sendNewCardKey_owns (passes : Nat) (uid : Uid) (randomBytes : CardKey)
    (owns : Owns ({(tls, .tls)} + rest) s) :
    Program.Meets ledger (fun _ s' => Owns rest s') (sendNewCardKey passes tls uid randomBytes)
      s := by
  -- The object is freed on both ways out, the text on neither.
  refine meets_use (Multiset.zero_le _) rfl (by simp) owns fun root2 s' owns => ?_
  refine meets_use (Multiset.le_add_right _ _) rfl (by simp) owns fun newKeyData s' owns => ?_
  refine meets_newKeyRequest owns (fun s' owns => ?_) fun s' owns => ?_
  · exact meets_free owns fun _ owns => recvNewCardKey_owns passes owns
  · exact meets_free owns fun _ owns => owns

/-- The card is given a new key. -/
theorem writeCard_owns (passes : Nat) (uid : Uid) (owns : Owns ({(tls, .tls)} + rest) s) :
    Program.Meets ledger (fun _ s' => Owns rest s') (writeCard passes tls uid) s := by
  unfold writeCard
  refine Program.Meets.bind (generateRandomHex_owns 15 owns) fun randomBytes s' owns => ?_
  refine meets_use (Multiset.zero_le _) rfl (by simp) owns fun pn532 s' owns => ?_
  have owns := owns.of_eq (zero_add _)
  split_ifs
  · exact meets_free owns fun _ owns => owns
  · exact sendNewCardKey_owns passes uid randomBytes owns

/-- The loop for the reply takes no memory. -/
theorem recvUidKey_owns (passes : Nat) (owns : Owns ({(tls, .tls)} + rest) s) :
    Program.Meets ledger (fun _ s' => Owns ({(tls, .tls)} + rest) s') (recvUidKey tls passes)
      s := by
  induction passes generalizing s with
  | zero => trivial
  | succ passes ih =>
    refine meets_read owns fun buf s' owns => ?_
    cases buf with
    | none => exact owns
    | some buf =>
      dsimp only
      split_ifs
      · exact owns
      · exact ih owns

/-- The server is told of the card. -/
theorem sendUidKey_owns (passes : Nat) (uid : Uid) (cardKey : CardKey)
    (owns : Owns ({(tls, .tls)} + rest) s) :
    Program.Meets ledger (fun _ s' => Owns rest s') (sendUidKey passes tls uid cardKey) s := by
  -- The object is freed first, and the text once the request is written.
  refine meets_use (Multiset.zero_le _) rfl (by simp) owns fun root s' owns => ?_
  refine meets_use (Multiset.le_add_right _ _) rfl (by simp) owns fun jsonData s' owns => ?_
  refine meets_free (owns.of_eq (add_left_comm _ _ _)) fun s' owns => ?_
  refine meets_request owns (fun s' owns => ?_) fun s' owns => ?_
  · refine meets_free owns fun s' owns => ?_
    refine (recvUidKey_owns passes owns).bind fun found s' owns => ?_
    cases found with
    | true => exact writeCard_owns passes uid owns
    | false => exact meets_free owns fun _ owns => owns
  · exact meets_free owns fun _ owns => owns

/-- The connection is opened, and its session is kept if it is the first one. -/
theorem connect_owns (passes crt key : Nat) (saved : Option Nat) (uid : Uid) (cardKey : CardKey)
    (owns : Owns ({(crt, .crt)} + ({(key, .key)} + savedPieces saved)) s) :
    Program.Meets ledger
      (fun ended s' => Owns ({(crt, .crt)} + ({(key, .key)} + savedPieces ended.2)) s')
      (connect passes crt key saved uid cardKey) s := by
  refine meets_use le_rfl rfl (by simp) owns fun tls s' owns => ?_
  cases tls with
  | none => exact owns.of_eq (zero_add _)
  | some tls =>
    have told : ∀ saved s', Owns ({(tls, .tls)} +
          ({(crt, .crt)} + ({(key, .key)} + savedPieces saved))) s' →
        Program.Meets ledger
          (fun ended s' => Owns ({(crt, .crt)} + ({(key, .key)} + savedPieces ended.2)) s')
          (do
            let systemPass ← sendUidKey passes tls uid cardKey
            pure (systemPass, saved)) s' :=
      fun saved s' owns => (sendUidKey_owns passes uid cardKey owns).bind fun _ _ owns => owns
    cases saved with
    | some session => exact told (some session) s' owns
    | none =>
      refine meets_use (Multiset.le_add_right _ _) rfl (by simp) owns fun session s' owns => ?_
      refine told session s' (owns.of_eq ?_)
      -- The session takes the place of none.
      change savedPieces session + ({(tls, .tls)} + ({(crt, .crt)} + ({(key, .key)} + 0))) = _
      rw [add_zero, add_comm, add_assoc, add_assoc]

/-- One request gives back all it holds, apart from what is lost and the session that is kept. -/
theorem httpsRequest_owns (passes : Nat) (saved : Option Nat) (uid : Uid) (cardKey : CardKey)
    (owns : Owns (savedPieces saved) s) :
    Program.Meets ledger (fun ended s' => Owns (savedPieces ended.2) s')
      (httpsRequest passes saved uid cardKey) s := by
  -- The two files are read before anything can go wrong, and freed whatever does.
  refine meets_use (Multiset.zero_le _) rfl (by simp) owns fun key s' owns => ?_
  refine meets_use (Multiset.le_add_right _ _) rfl (by simp) owns fun keySize s' owns => ?_
  refine meets_use (Multiset.zero_le _) rfl (by simp) (owns.of_eq (zero_add _))
    fun crt s' owns => ?_
  refine meets_use (Multiset.le_add_right _ _) rfl (by simp) owns fun certSize s' owns => ?_
  have owns := owns.of_eq (zero_add _)
  refine Program.Meets.bind
    (P := fun (ended : Bool × Option Nat) s' =>
      Owns ({(crt, .crt)} + ({(key, .key)} + savedPieces ended.2)) s') ?_ fun ended s' owns => ?_
  · split_ifs
    · exact owns
    · exact owns
    · exact connect_owns passes crt key saved uid cardKey owns
  · refine meets_free (owns.of_eq (add_left_comm _ _ _)) fun s' owns => ?_
    exact meets_free owns fun _ owns => owns

/-- The same for requests in a row. -/
theorem sessions_owns (passes : Nat) (taps : List (Uid × CardKey)) (saved : Option Nat)
    (owns : Owns (savedPieces saved) s) :
    Program.Meets ledger (fun ended s' => Owns (savedPieces ended.2) s')
      (sessions passes taps saved) s := by
  -- The session that one request keeps is handed to the next.
  induction taps generalizing saved s with
  | nil => exact owns
  | cons tap taps ih =>
    refine (httpsRequest_owns passes saved tap.1 tap.2 owns).bind fun ended s' owns => ?_
    exact (ih ended.2 owns).bind fun _ _ owns => owns

end

/--
Requests in a row never free a block twice and never use one that was freed, and exactly these
blocks are left behind: the text of each first request that could not be written, the text of each
announcement of a new key, the connection of each announcement that could not be written, and at
most one session.
-/
theorem sessions_lose (passes : Nat) (taps : List (Uid × CardKey)) {events : List (Event Esp)}
    {rest : Program Esp (List Bool × Option Nat)}
    (leaves : (sessions passes taps none).Leaves events rest) :
    allocation.contract.Accepts 0 events ∧
      ∀ passed saved, rest = pure (passed, saved) → ∀ block,
        live (allocation.contract.after 0 events) block =
          lost events block + if block = .clientSession then saved.toList.length else 0 := by
  -- At the start nothing is in use and nothing is lost.
  have start : Owns (savedPieces none) (0, []) :=
    ⟨0, rfl, fun block => by cases block <;> rfl⟩
  obtain ⟨accepted, kept⟩ := (sessions_owns passes taps none start).leaves leaves
  refine ⟨(Contract.recorded_accepts _).mp accepted, fun passed saved ended block => ?_⟩
  subst ended
  obtain ⟨others, heap, same⟩ := kept
  rw [Contract.recorded_after] at heap same
  simp only [List.append_nil] at heap same
  -- The order of the calls makes no difference to how many there are.
  have reversed : lost events.reverse block = lost events block := by
    cases block <;> simp [lost]
  rw [heap, live_add, same, reversed, add_comm]
  cases saved <;> cases block <;> simp [savedPieces]

/-- A first request that cannot be written leaves its text behind. -/
theorem sessions_lose_unwritten :
    live (allocation.contract.after 0 unwrittenSession) .jsonData = 1 :=
  (sessions_lose 1 [(bobUid, firstKey bobUid)] (unwrittenSession_sessions 1)).2 [false] (some 4) rfl
    .jsonData

end Esp

end Rfid
