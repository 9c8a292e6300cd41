import RfidEncryption.Reader.Source

/-! `https_request` makes the calls of the machine it is followed as, and no others. -/

namespace Rfid

open Device Reactive

namespace Esp

/-- A call and its answer as the machine sees them, the server's surroundings being `env`. -/
def sessionEvent (env : Env) : (c : EspCall) → Esp.Answer c → Option SessionEvent
  | .connHttpNew _ _ _, tls => some (.connect tls.isSome)
  | .connWrite _ _ _, ret => some (.write env ret)
  | .connRead _, some buf => some (.read buf.bytes)
  | .connRead _, none => some .readFails
  | .cardWriteOnBlock _ data, pn532 => some (.program data pn532)
  | _, _ => none

/-- The calls the machine makes where it stands. -/
def Expects (s : CardSession) : EspCall → Prop
  | .connHttpNew _ _ _ => s.reader.stage = .connect
  | .connWrite buffer _ text => s.reader.stage = buffer.stage ∧ text = s.reader.requestText
  | .connRead _ => s.reader.reading = true
  | .cardWriteOnBlock uid _ => s.reader.stage = .writeCard ∧ uid = s.reader.uid
  | _ => True

/-- The machine, watching the calls of `https_request`. -/
def followed (env : Env) : Contract Esp CardSession where
  demand := Expects
  step s c answer := ((sessionEvent env c answer).map (Rfid.httpsRequest.next s)).getD s

/-- A row of calls as the machine sees it. -/
def sessionEvents (env : Env) (events : List (Event Esp)) : List SessionEvent :=
  events.filterMap fun e => sessionEvent env e.1 e.2

/-- A key or a certificate was read with a length of zero. -/
def FlashUnread (events : List (Event Esp)) : Prop :=
  ∃ block address, (⟨.flashReader block address, (0 : Nat)⟩ : Event Esp) ∈ events

/-- What the machine makes of a row of calls. -/
theorem followed_after (env : Env) (s : CardSession) (events : List (Event Esp)) :
    (followed env).after s events = Rfid.httpsRequest.after s (sessionEvents env events) := by
  -- A call the machine does not know is none of its inputs.
  induction events generalizing s with
  | nil => rfl
  | cons e events ih =>
    rw [Contract.after_cons, ih]
    cases seen : sessionEvent env e.1 e.2 with
    | none => simp [followed, sessionEvents, seen]
    | some event => simp [followed, sessionEvents, seen]

/-- A call the machine does not know leaves it where it is. -/
theorem followed_silent {env : Env} {s : CardSession} {c : EspCall} {answer : Esp.Answer c}
    (silent : sessionEvent env c answer = none) : (followed env).step s c answer = s := by
  simp [followed, silent]

section
variable {α : Type} {env : Env} {s : CardSession} {tls : Nat} {Q : α → CardSession → Prop}

/-- A request is written where the machine writes one. -/
theorem meets_connWrite {buffer : Buffer} {text : Bytes} {f : Bool → Program Esp α}
    (stage : s.reader.stage = buffer.stage) (same : text = s.reader.requestText)
    (rest : ∀ ret sent, Program.Meets (followed env) Q (f ret)
      { s with reader := s.reader.wrote ret, sent := sent }) :
    Program.Meets (followed env) Q (call (.connWrite buffer tls text) >>= f) s := by
  refine Program.meets_command_bind.mpr ⟨⟨stage, same⟩, fun ret => ?_⟩
  -- At each of the three places the machine has a request to write.
  obtain ⟨asked, asks⟩ : ∃ asked, s.reader.request env = some asked := by
    cases buffer <;> exact ⟨_, by rw [Reader.request, stage]; rfl⟩
  have moved : (followed env).step s (.connWrite buffer tls text) ret =
      { s with reader := s.reader.wrote ret, sent := if ret then asked :: s.sent else s.sent } := by
    cases ret <;>
      simp [followed, sessionEvent, Machine.next, Rfid.httpsRequest, sessionStep, asks]
  rw [moved]
  exact rest ret _

/-- Bytes are read where the machine waits for some. -/
theorem meets_connRead {f : Option Chunk → Program Esp α} (waits : s.reader.reading = true)
    (nothing : Program.Meets (followed env) Q (f none) { s with reader := s.reader.readFailed })
    (some : ∀ buf : Chunk, Program.Meets (followed env) Q (f (some buf))
      { s with reader := s.reader.received buf.bytes }) :
    Program.Meets (followed env) Q (call (.connRead tls) >>= f) s := by
  refine Program.meets_command_bind.mpr ⟨waits, fun answer => ?_⟩
  -- A read returns nothing or some bytes, and the machine has an input for each.
  cases answer with
  | none => exact nothing
  | some buf =>
    have moved : (followed env).step s (.connRead tls) (Option.some buf) =
        { s with reader := s.reader.received buf.bytes } := by
      simp [followed, sessionEvent, Machine.next, Rfid.httpsRequest, sessionStep, waits, buf.some,
        buf.fits]
    rw [moved]
    exact some buf

/-- Behind a call the machine does not know the program goes on from where it was. -/
theorem meets_silent {c : EspCall} {f : Esp.Answer c → Program Esp α} (expected : Expects s c)
    (silent : ∀ answer, sessionEvent env c answer = none)
    (rest : ∀ answer, Program.Meets (followed env) Q (f answer) s) :
    Program.Meets (followed env) Q (call c >>= f) s := by
  refine Program.meets_command_bind.mpr ⟨expected, fun answer => ?_⟩
  rw [followed_silent (silent answer)]
  exact rest answer

/-- Such a call is only written down. -/
theorem meets_written {past : List (Event Esp)} {Q : α → CardSession × List (Event Esp) → Prop}
    {c : EspCall} {f : Esp.Answer c → Program Esp α} (expected : Expects s c)
    (silent : ∀ answer, sessionEvent env c answer = none)
    (rest : ∀ answer,
      Program.Meets (followed env).recorded Q (f answer) (s, ⟨c, answer⟩ :: past)) :
    Program.Meets (followed env).recorded Q (call c >>= f) (s, past) := by
  refine Program.meets_command_bind.mpr ⟨expected, fun answer => ?_⟩
  rw [Contract.recorded_step, followed_silent (silent answer)]
  exact rest answer

end

section
variable {env : Env} {s : CardSession} {tls : Nat}

/-- Random bytes are drawn without a call the machine knows. -/
theorem generateRandomHex_meets (length : Nat) :
    Program.Meets (followed env) (fun _ s' => s' = s) (generateRandomHex length) s := by
  induction length with
  | zero => exact rfl
  | succ length ih =>
    refine ih.bind fun buffer s' same => ?_
    subst same
    exact meets_silent trivial (fun _ => rfl) fun _ => rfl

/-- The loop for the door ends in the stage of what it returns. -/
theorem sendOpen_meets (passes : Nat) (asks : s.reader.stage = .sendOpen) :
    Program.Meets (followed env) (fun pass s' => s'.reader.stage = .returned pass)
      (sendOpen tls passes) s := by
  -- The induction is on the passes of the loop, which start at the same place each time.
  induction passes generalizing s with
  | zero => trivial
  | succ passes ih =>
    refine meets_connWrite asks (by rw [Reader.requestText, asks]) fun ret sent => ?_
    have waits : (s.reader.wrote ret).stage = .recvOpen := by rw [Reader.wrote, asks]
    refine meets_connRead (by rw [Reader.reading, waits]) ?_ fun buf => ?_
    · simp [Reader.readFailed, waits]
    · dsimp only
      split_ifs with found refused
      · simp [Reader.received, waits, found]
      · simp [Reader.received, waits, found, refused]
      · -- The machine asks again, whatever the light does.
        refine meets_silent trivial (fun _ => rfl) fun _ => ih ?_
        simp [Reader.received, waits, found, refused]

/-- The loop for the reply ends where the card is written, if it has found the text. -/
theorem recvUidKey_meets (passes : Nat) (waits : s.reader.stage = .recvUidKey) :
    Program.Meets (followed env)
      (fun found s' => s'.reader.stage = (if found then .writeCard else .returned false) ∧
        s'.reader.uid = s.reader.uid)
      (recvUidKey tls passes) s := by
  -- The reader stays where it is until it has found the text.
  induction passes generalizing s with
  | zero => trivial
  | succ passes ih =>
    refine meets_connRead (by rw [Reader.reading, waits]) ?_ fun buf => ?_
    · simp [Reader.readFailed, waits]
    · dsimp only
      split_ifs with found
      · simp [Reader.received, waits, found]
      · -- Another text changes nothing.
        have same : s.reader.received buf.bytes = s.reader := by
          simp [Reader.received, waits, found]
        rw [same]
        exact ih waits

/-- The reply to the new key leads to the loop for the door, unless it refuses. -/
theorem recvNewCardKey_meets (passes : Nat) (waits : s.reader.stage = .recvNewCardKey) :
    Program.Meets (followed env) (fun pass s' => s'.reader.stage = .returned pass)
      (recvNewCardKey passes tls) s := by
  -- Both reads that do not refuse go on to the loop for the door.
  have polls : ∀ s', s'.reader.stage = .sendOpen →
      Program.Meets (followed env) (fun pass s' => s'.reader.stage = .returned pass)
        (do
          let systemPass ← sendOpen tls passes
          call (.free .tls tls)
          pure systemPass) s' :=
    fun s' asks => (sendOpen_meets passes asks).bind fun pass s'' ended =>
      meets_silent trivial (fun _ => rfl) fun _ => ended
  refine meets_connRead (by rw [Reader.reading, waits]) ?_ fun buf => ?_
  · -- No text is found in a buffer that was only cleared.
    have absent : Text.strstr [] (utf8 "IS_OK:NO") = false := by decide
    simp only [Option.map_none, Option.getD_none, absent, Bool.false_eq_true, if_false]
    exact polls _ (by rw [Reader.readFailed, waits])
  · simp only [Option.map_some, Option.getD_some]
    split_ifs with refused
    · refine meets_silent trivial (fun _ => rfl) fun _ => ?_
      simp [Reader.received, waits, refused]
    · exact polls _ (by simp [Reader.received, waits, refused])

/-- The new key is told to the server as the machine tells it. -/
theorem sendNewCardKey_meets (passes : Nat) {uid : Uid} {randomBytes : CardKey}
    (sends : s.reader.stage = .sendNewCardKey) (named : s.reader.uid = uid)
    (drawn : s.reader.randomBytes = randomBytes) :
    Program.Meets (followed env) (fun pass s' => s'.reader.stage = .returned pass)
      (sendNewCardKey passes tls uid randomBytes) s := by
  subst named drawn
  refine meets_silent trivial (fun _ => rfl) fun root2 => ?_
  refine meets_silent trivial (fun _ => rfl) fun _ => ?_
  refine meets_connWrite sends (by rw [Reader.requestText, sends]) fun ret sent => ?_
  refine meets_silent trivial (fun _ => rfl) fun _ => ?_
  -- Unlike the other two, this way out leaves the connection open.
  cases ret with
  | false => simp [Reader.wrote, sends]
  | true => exact recvNewCardKey_meets passes (by simp [Reader.wrote, sends])

/-- The card is written as the machine writes it. -/
theorem writeCard_meets (passes : Nat) {uid : Uid} (writes : s.reader.stage = .writeCard)
    (named : s.reader.uid = uid) :
    Program.Meets (followed env) (fun pass s' => s'.reader.stage = .returned pass)
      (writeCard passes tls uid) s := by
  unfold writeCard
  refine Program.Meets.bind (generateRandomHex_meets 15) fun randomBytes s' same => ?_
  subst same
  refine Program.meets_command_bind.mpr ⟨⟨writes, named.symm⟩, fun pn532 => ?_⟩
  have moved : (followed env).step s' (.cardWriteOnBlock uid randomBytes) pn532 =
      { s' with
        reader := s'.reader.wroteCard randomBytes (cardWriteOnBlock4 pn532 randomBytes).1
        reports := ((cardWriteOnBlock4 pn532 randomBytes).2, pn532) :: s'.reports } := by
    simp [followed, sessionEvent, Machine.next, Rfid.httpsRequest, sessionStep, writes]
  rw [moved]
  -- The result is that of the model of `card_write_on_block`.
  split_ifs with failed
  · refine meets_silent trivial (fun _ => rfl) fun _ => ?_
    simp only [Program.meets_pure, Reader.wroteCard, if_pos failed]
  · exact sendNewCardKey_meets passes (by simp only [Reader.wroteCard, if_neg failed]) named rfl

/-- The card is named to the server as the machine names it. -/
theorem sendUidKey_meets (passes : Nat) {uid : Uid} {cardKey : CardKey}
    (sends : s.reader.stage = .sendUidKey) (named : s.reader.uid = uid)
    (read : s.reader.cardKey = cardKey) :
    Program.Meets (followed env) (fun pass s' => s'.reader.stage = .returned pass)
      (sendUidKey passes tls uid cardKey) s := by
  subst named read
  refine meets_silent trivial (fun _ => rfl) fun root => ?_
  refine meets_silent trivial (fun _ => rfl) fun jsonData => ?_
  refine meets_silent trivial (fun _ => rfl) fun _ => ?_
  refine meets_connWrite sends (by rw [Reader.requestText, sends]) fun ret sent => ?_
  cases ret with
  | false =>
    refine meets_silent trivial (fun _ => rfl) fun _ => ?_
    simp [Reader.wrote, sends]
  | true =>
    refine meets_silent trivial (fun _ => rfl) fun _ => ?_
    -- The reader keeps its card while it waits for the reply.
    have waits : ({ s with reader := s.reader.wrote true, sent } : CardSession).reader.stage =
        .recvUidKey := by simp [Reader.wrote, sends]
    refine (recvUidKey_meets passes waits).bind fun found s' ended => ?_
    obtain ⟨stage, same⟩ := ended
    cases found with
    | false => exact meets_silent trivial (fun _ => rfl) fun _ => stage
    | true => exact writeCard_meets passes stage (same.trans (Reader.wrote_uid s.reader true))

/-- The connection is opened as the machine opens it. -/
theorem connect_meets (passes crt key : Nat) (saved : Option Nat) {uid : Uid} {cardKey : CardKey}
    (opens : s.reader.stage = .connect) (named : s.reader.uid = uid)
    (read : s.reader.cardKey = cardKey) :
    Program.Meets (followed env) (fun ended s' => s'.reader.stage = .returned ended.1)
      (connect passes crt key saved uid cardKey) s := by
  refine Program.meets_command_bind.mpr ⟨opens, fun tls => ?_⟩
  have moved : (followed env).step s (.connHttpNew crt key saved) tls =
      { s with reader := s.reader.connected tls.isSome } := by
    simp [followed, sessionEvent, Machine.next, Rfid.httpsRequest, sessionStep, opens]
  rw [moved]
  -- Without a connection there is nothing to close either.
  cases tls with
  | none => rfl
  | some tls =>
    have opened : ({ s with reader := s.reader.connected true } : CardSession).reader.stage =
        .sendUidKey := rfl
    have told : ∀ saved : Option Nat, Program.Meets (followed env)
        (fun ended s' => s'.reader.stage = .returned ended.1)
        (do
          let systemPass ← sendUidKey passes tls uid cardKey
          pure (systemPass, saved))
        { s with reader := s.reader.connected true } :=
      fun saved => (sendUidKey_meets passes opened named read).bind fun pass s' ended => ended
    cases saved with
    | none => exact meets_silent trivial (fun _ => rfl) told
    | some session => exact told (some session)

end

/-- How a run of `https_request` may end: as the machine, or before its first call. -/
def Ended (start : CardSession) (pass : Bool) (s : CardSession)
    (events : List (Event Esp)) : Prop :=
  s.reader.stage = .returned pass ∨ pass = false ∧ s = start ∧ FlashUnread events

/-- What was written down behind the end does not change how a run ended. -/
theorem Ended.mono {start s : CardSession} {pass : Bool} {events later : List (Event Esp)}
    (ended : Ended start pass s events) (within : events ⊆ later) : Ended start pass s later := by
  cases ended with
  | inl returned => exact .inl returned
  | inr early =>
    obtain ⟨refused, still, block, address, unread⟩ := early
    exact .inr ⟨refused, still, block, address, within unread⟩

/-- Every run ends as the machine, unless the key or the certificate cannot be read. -/
theorem httpsRequest_meets (env : Env) (passes : Nat) (saved : Option Nat) (uid : Uid)
    (cardKey : CardKey) :
    Program.Meets (followed env).recorded
      (fun ended r => Ended (CardSession.start uid cardKey) ended.1 r.1 r.2)
      (httpsRequest passes saved uid cardKey) (CardSession.start uid cardKey, []) := by
  -- The flash is read before the first call that the machine knows.
  refine meets_written trivial (fun _ => rfl) fun key => ?_
  refine meets_written trivial (fun _ => rfl) fun keySize => ?_
  refine meets_written trivial (fun _ => rfl) fun crt => ?_
  refine meets_written trivial (fun _ => rfl) fun certSize => ?_
  -- Every way out of the session leads to the two calls of `free` at the end.
  refine Program.Meets.bind (P := fun (ended : Bool × Option Nat) r =>
      Ended (CardSession.start uid cardKey) ended.1 r.1 r.2) ?_ fun ended r ends => ?_
  · split_ifs with keyUnread certUnread
    · subst keyUnread
      exact .inr ⟨rfl, rfl, .key, key, by simp⟩
    · subst certUnread
      exact .inr ⟨rfl, rfl, .crt, crt, by simp⟩
    · have told : Program.Meets (followed env) (fun ended s' => s'.reader.stage = .returned ended.1)
          (connect passes crt key saved uid cardKey) (CardSession.start uid cardKey) :=
        connect_meets passes crt key saved rfl rfl rfl
      exact (told.recorded _).mono fun _ _ returned => .inl returned.1
  · obtain ⟨s, events⟩ := r
    refine meets_written trivial (fun _ => rfl) fun _ => ?_
    refine meets_written trivial (fun _ => rfl) fun _ => ?_
    exact ends.mono fun e listed => by simp [listed]

/-- Whether a call waits for bytes, which each pass of a loop does once. -/
def reads : EspCall → Bool
  | .connRead _ => true
  | _ => false

/-- Random bytes are drawn without a loop that can go on for ever. -/
theorem generateRandomHex_lasts (length passes : Nat) :
    (generateRandomHex length).Lasts reads passes := by
  induction length with
  | zero => exact .done _ passes
  | succ length ih => exact ih.bind fun _ => .behind fun _ => .done _ passes

/-- The loop for the door reads once in every pass. -/
theorem sendOpen_lasts (tls passes : Nat) : (sendOpen tls passes).Lasts reads passes := by
  -- The induction is on the passes, and the read of each one pays for it.
  induction passes with
  | zero => exact .stuck
  | succ passes ih =>
    refine .behind fun _ => .pass rfl fun buf => ?_
    cases buf with
    | none => exact .done false passes
    | some buf =>
      dsimp only
      split_ifs
      · exact .done true passes
      · exact .done false passes
      · exact .behind fun _ => ih

/-- The loop for the reply reads once in every pass. -/
theorem recvUidKey_lasts (tls passes : Nat) : (recvUidKey tls passes).Lasts reads passes := by
  -- As in the loop for the door, without a request in front of the read.
  induction passes with
  | zero => exact .stuck
  | succ passes ih =>
    refine .pass rfl fun buf => ?_
    cases buf with
    | none => exact .done false passes
    | some buf =>
      dsimp only
      split_ifs
      · exact .done true passes
      · exact ih

section
variable (passes tls : Nat) (uid : Uid)

/-- Behind the reply to the new key there is only the loop for the door. -/
theorem recvNewCardKey_lasts : (recvNewCardKey passes tls).Lasts reads passes := by
  refine .behind fun buf => ?_
  split_ifs
  · exact .behind fun _ => .done false passes
  · exact (sendOpen_lasts tls passes).bind fun pass => .behind fun _ => .done pass passes

/-- Telling the server of a new key takes no loop of its own. -/
theorem sendNewCardKey_lasts (randomBytes : CardKey) :
    (sendNewCardKey passes tls uid randomBytes).Lasts reads passes := by
  refine .behind fun root2 => .behind fun _ => .behind fun ret => .behind fun _ => ?_
  split_ifs
  · exact .done false passes
  · exact recvNewCardKey_lasts passes tls

/-- Writing a card takes no loop of its own either. -/
theorem writeCard_lasts : (writeCard passes tls uid).Lasts reads passes := by
  refine (generateRandomHex_lasts 15 passes).bind fun randomBytes => .behind fun pn532 => ?_
  split_ifs
  · exact .behind fun _ => .done false passes
  · exact sendNewCardKey_lasts passes tls uid randomBytes

/-- The loop for the reply is the first one of a connection. -/
theorem sendUidKey_lasts (cardKey : CardKey) :
    (sendUidKey passes tls uid cardKey).Lasts reads passes := by
  refine .behind fun root => .behind fun _ => .behind fun _ => .behind fun ret => ?_
  split_ifs
  · exact .behind fun _ => .done false passes
  · refine .behind fun _ => (recvUidKey_lasts tls passes).bind fun found => ?_
    cases found with
    | false => exact .behind fun _ => .done false passes
    | true => exact writeCard_lasts passes tls uid

/-- `https_request` gets stuck only in a loop that has used up its passes. -/
theorem httpsRequest_lasts (saved : Option Nat) (cardKey : CardKey) :
    (httpsRequest passes saved uid cardKey).Lasts reads passes := by
  -- Neither the flash nor the connection is waited for in a loop.
  refine .behind fun key => .behind fun keySize => .behind fun crt => .behind fun certSize => ?_
  refine .bind ?_ fun ended => .behind fun _ => .behind fun _ => .done ended passes
  split_ifs
  · exact .done _ passes
  · exact .done _ passes
  · refine .behind fun tls => ?_
    cases tls with
    | none => exact .done _ passes
    | some tls =>
      have told := sendUidKey_lasts passes tls uid cardKey
      cases saved with
      | none => exact .behind fun saved => told.bind fun pass => .done (pass, saved) passes
      | some session => exact told.bind fun pass => .done (pass, some session) passes

end

/--
`https_request` makes exactly the calls of the machine, with the machine's texts, wherever a run of
it has come to, and returns what the machine returns.

Only a key or a certificate that cannot be read ends it before the first of these calls, and it is
cut short only by running out of the passes it was given, each of which reads once.
-/
theorem httpsRequest_followed (env : Env) (passes : Nat) (saved : Option Nat) (uid : Uid)
    (cardKey : CardKey) {events : List (Event Esp)} {rest : Program Esp (Bool × Option Nat)}
    (leaves : (httpsRequest passes saved uid cardKey).Leaves events rest) :
    (∀ done e, done ++ [e] <+: events →
      Expects (Rfid.httpsRequest.after (CardSession.start uid cardKey)
        (sessionEvents env done)) e.1) ∧
      (∀ pass saved', rest = pure (pass, saved') →
        (Rfid.httpsRequest.after (CardSession.start uid cardKey)
            (sessionEvents env events)).reader.stage = .returned pass ∨
          pass = false ∧
            Rfid.httpsRequest.after (CardSession.start uid cardKey) (sessionEvents env events) =
              CardSession.start uid cardKey ∧
            FlashUnread events) ∧
      (rest = .stuck → passes ≤ events.countP fun e => reads e.1) := by
  -- What was written down on the way is the row of calls itself.
  obtain ⟨accepted, kept⟩ := (httpsRequest_meets env passes saved uid cardKey).leaves leaves
  rw [Contract.recorded_accepts] at accepted
  rw [Contract.recorded_after] at kept
  refine ⟨fun done e initial => ?_, fun pass saved' ended => ?_, fun stopped => ?_⟩
  · rw [← followed_after]
    exact (followed env).accepts_iff.mp accepted done e initial
  · subst ended
    rw [← followed_after]
    exact Ended.mono kept fun e listed => by simpa using listed
  · subst stopped
    exact (httpsRequest_lasts passes uid saved cardKey).leaves leaves

/-- The machine returns no grant when the first request cannot be written. -/
theorem httpsRequest_followed_unwritten :
    (Rfid.httpsRequest.after (CardSession.start bobUid (firstKey bobUid))
        (sessionEvents quietEnv unwrittenSession)).reader.stage = .returned false ∨
      false = false ∧
        Rfid.httpsRequest.after (CardSession.start bobUid (firstKey bobUid))
          (sessionEvents quietEnv unwrittenSession) = CardSession.start bobUid (firstKey bobUid) ∧
        FlashUnread unwrittenSession :=
  (httpsRequest_followed quietEnv 1 none bobUid (firstKey bobUid) (unwrittenSession_leaves 1)).2.1
    false (some 4) rfl

end Esp

end Rfid
