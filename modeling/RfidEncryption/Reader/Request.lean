import RfidEncryption.Server.Clients
import RfidEncryption.Text.Search

/-! The card reader: `https_request` as far as it goes between two calls of the TLS library. -/

namespace Rfid

/-- Where `https_request` stands. -/
inductive Stage where
  /-- No card was presented yet. -/
  | idle
  /-- Before `esp_tls_conn_http_new`. -/
  | connect
  | sendUidKey
  | recvUidKey
  /-- Before `card_write_on_block`. -/
  | writeCard
  | sendNewCardKey
  | recvNewCardKey
  | sendOpen
  | recvOpen
  | returned (pass : Bool)
  deriving DecidableEq, Repr

/-- The variables of one run of `https_request`, and the bytes its connection holds for it. -/
structure Reader where
  stage : Stage
  uid : Uid
  cardKey : CardKey
  randomBytes : CardKey
  /-- What the server has sent and `esp_tls_conn_read` has not returned yet. -/
  unread : Bytes
  /-- How many of the unread bytes, which come first, answer other requests than those for the
  door.
  No code reads this. -/
  stale : Nat
  deriving DecidableEq, Repr

/-- The largest number of bytes one `esp_tls_conn_read` may return: `sizeof(buf) - 1`. -/
def readLength : Nat := 511

/-- `card_write_on_block`, whose result does not depend on whether the block was written. -/
def cardWriteOnBlock (_written : Bool) : Int := 0

namespace Reader

/-- A reader that has not seen a card. -/
def start : Reader :=
  { stage := .idle
    uid := Vector.replicate 7 0
    cardKey := Vector.replicate 15 0
    randomBytes := Vector.replicate 15 0
    unread := []
    stale := 0 }

/-- Whether a session is in progress. -/
def busy (r : Reader) : Bool :=
  match r.stage with
  | .idle | .returned _ => false
  | _ => true

variable (r : Reader)

/-- The call of `https_request` by `nfc_task`, with what it read from the card. -/
def call (uid : Uid) (cardKey : CardKey) : Reader :=
  { r with stage := .connect, uid, cardKey, unread := [], stale := 0 }

/-- After `esp_tls_conn_http_new`. -/
def connected (tls : Bool) : Reader :=
  { r with stage := if tls then .sendUidKey else .returned false }

/-- What `esp_tls_conn_write` is given. -/
def request (env : Env) : Option Call :=
  match r.stage with
  | .sendUidKey => some (uidKeyCall env r.uid.toList r.cardKey.toList)
  | .sendNewCardKey => some (newCardKeyCall env r.uid.toList r.randomBytes.toList)
  | .sendOpen => some (openCall env)
  | _ => none

/-- After `esp_tls_conn_write`, by whether its result was not negative. -/
def wrote (ret : Bool) : Reader :=
  match r.stage with
  -- A request that cannot be written ends the session, except in the poll loop.
  | .sendUidKey => { r with stage := if ret then .recvUidKey else .returned false }
  | .sendNewCardKey => { r with stage := if ret then .recvNewCardKey else .returned false }
  -- The poll loop overwrites the result of the write with that of the read.
  | .sendOpen => { r with stage := .recvOpen }
  | _ => r

/-- The reply to a request arrives on the connection. -/
def arrive (bytes : Bytes) : Reader :=
  { r with
    -- Bytes wait behind those that were not read yet.
    unread := r.unread ++ bytes
    stale := if r.stage = .sendOpen then r.stale else r.stale + bytes.length }

/-- After an `esp_tls_conn_read` that returned some bytes. -/
def received (buf : Bytes) : Reader :=
  match r.stage with
  -- Any other text is read over, and the loop goes on.
  | .recvUidKey => if Text.strstr buf (utf8 "200 OK") then { r with stage := .writeCard } else r
  -- One read is taken for the whole reply.
  | .recvNewCardKey =>
    { r with
      stage := if Text.strstr buf (utf8 "IS_OK:NO") then .returned false else .sendOpen }
  | .recvOpen =>
    { r with
      stage :=
        -- Neither text means that the door is not open yet.
        if Text.strstr buf (utf8 "200 OK") then .returned true
        else if Text.strstr buf (utf8 "400 Bad") then .returned false
        else .sendOpen }
  | _ => r

/-- The connection hands over its next bytes. -/
def consumed (count : Nat) : Reader :=
  { r with unread := r.unread.drop count, stale := r.stale - count }

/-- After an `esp_tls_conn_read` that returned nothing. -/
def readFailed : Reader :=
  match r.stage with
  -- The buffer was cleared before the read, so the text of success is not in it.
  | .recvUidKey => { r with stage := .returned false }
  -- The reply to the new key is not waited for again.
  | .recvNewCardKey => { r with stage := .sendOpen }
  | .recvOpen => { r with stage := .returned false }
  | _ => r

/-- After `card_write_on_block` of fresh random bytes. -/
def wroteCard (randomBytes : CardKey) (err : Int) : Reader :=
  { r with randomBytes, stage := if err ≠ 0 then .returned false else .sendNewCardKey }

/-- Whether `https_request` waits for bytes. -/
def reading : Bool :=
  match r.stage with
  | .recvUidKey | .recvNewCardKey | .recvOpen => true
  | _ => false

/-- The three requests `https_request` sends, each from a place of its own. -/
theorem request_cases {r : Reader} {env : Env} {call : Call} (asks : r.request env = some call) :
    (r.stage = .sendUidKey ∧ call = uidKeyCall env r.uid.toList r.cardKey.toList) ∨
    (r.stage = .sendNewCardKey ∧ call = newCardKeyCall env r.uid.toList r.randomBytes.toList) ∨
    (r.stage = .sendOpen ∧ call = openCall env) := by
  -- Only three places write to the connection.
  unfold request at asks
  split at asks
  · rename_i stage
    exact .inl ⟨stage, (Option.some.inj asks).symm⟩
  · rename_i stage
    exact .inr (.inl ⟨stage, (Option.some.inj asks).symm⟩)
  · rename_i stage
    exact .inr (.inr ⟨stage, (Option.some.inj asks).symm⟩)
  · simp at asks

section
variable (bytes buf : Bytes) (ret : Bool) (count : Nat)

@[simp] theorem wrote_unread : (r.wrote ret).unread = r.unread := by
  unfold wrote
  split <;> rfl

@[simp] theorem wrote_stale : (r.wrote ret).stale = r.stale := by
  unfold wrote
  split <;> rfl

@[simp] theorem readFailed_unread : r.readFailed.unread = r.unread := by
  unfold readFailed
  split <;> rfl

@[simp] theorem readFailed_stale : r.readFailed.stale = r.stale := by
  unfold readFailed
  split <;> rfl

@[simp] theorem received_unread : (r.received buf).unread = r.unread := by
  unfold received
  split
  · split <;> rfl
  all_goals rfl

@[simp] theorem received_stale : (r.received buf).stale = r.stale := by
  unfold received
  split
  · split <;> rfl
  all_goals rfl

/-- The places a read leads to, by what the reader waits for and finds. -/
theorem received_cases :
    (r.received buf).stage = r.stage ∨
    (r.stage = .recvUidKey ∧ Text.strstr buf (utf8 "200 OK") = true ∧
      (r.received buf).stage = .writeCard) ∨
    (r.stage = .recvNewCardKey ∧
      ((r.received buf).stage = .returned false ∨ (r.received buf).stage = .sendOpen)) ∨
    (r.stage = .recvOpen ∧
      (Text.strstr buf (utf8 "200 OK") = true ∧ (r.received buf).stage = .returned true ∨
        (r.received buf).stage = .returned false ∨ (r.received buf).stage = .sendOpen)) := by
  -- The loop that reads decides what is searched for.
  unfold received
  split
  · rename_i waits
    split_ifs with found
    · exact .inr (.inl ⟨waits, found, rfl⟩)
    · exact .inl rfl
  · rename_i waits
    refine .inr (.inr (.inl ⟨waits, ?_⟩))
    dsimp only
    split_ifs
    · exact .inl rfl
    · exact .inr rfl
  · rename_i waits
    refine .inr (.inr (.inr ⟨waits, ?_⟩))
    dsimp only
    split_ifs with found refused
    · exact .inl ⟨found, rfl⟩
    · exact .inr (.inl rfl)
    · exact .inr (.inr rfl)
  · exact .inl rfl

@[simp] theorem wrote_uid : (r.wrote ret).uid = r.uid := by
  unfold wrote
  split <;> rfl

@[simp] theorem readFailed_uid : r.readFailed.uid = r.uid := by
  unfold readFailed
  split <;> rfl

@[simp] theorem received_uid : (r.received buf).uid = r.uid := by
  unfold received
  split
  · split <;> rfl
  all_goals rfl

@[simp] theorem arrive_uid : (r.arrive bytes).uid = r.uid := rfl

@[simp] theorem consumed_uid : (r.consumed count).uid = r.uid := rfl

@[simp] theorem consumed_stage : (r.consumed count).stage = r.stage := rfl

@[simp] theorem arrive_stage : (r.arrive bytes).stage = r.stage := rfl

end

section
variable {r : Reader} {ret : Bool} {buf : Bytes}

/-- Writing a request returns no grant. -/
theorem pass_of_wrote (passed : (r.wrote ret).stage = .returned true) :
    r.stage = .returned true := by
  -- A write that fails returns no grant, and one that succeeds returns nothing.
  unfold wrote at passed
  split at passed <;> cases ret <;> simp_all

/-- A failed read returns no grant. -/
theorem pass_of_readFailed (passed : r.readFailed.stage = .returned true) :
    r.stage = .returned true := by
  -- A failed read ends the loop without a grant.
  unfold readFailed at passed
  split at passed <;> simp_all

/-- A read returns a grant when the poll loop finds the status text in it. -/
theorem pass_of_received (passed : (r.received buf).stage = .returned true) :
    r.stage = .returned true ∨ r.stage = .recvOpen ∧ Text.strstr buf (utf8 "200 OK") = true := by
  -- Of the three loops only the last returns a grant.
  rcases r.received_cases buf with same | ⟨_, _, stage⟩ | ⟨_, stage⟩ |
    ⟨polling, ⟨found, _⟩ | stage⟩
  · exact .inl (same ▸ passed)
  · simp [stage] at passed
  · simp [passed] at stage
  · exact .inr ⟨polling, found⟩
  · simp [passed] at stage

/-- A reader that goes on without reading after a write had nothing to write. -/
theorem waits_of_wrote (waits : (r.wrote ret).reading = false) (busy : (r.wrote ret).busy = true) :
    r.reading = false ∧ r.busy = true := by
  -- Where something is written, a read comes next.
  unfold wrote at waits busy
  split at waits <;> cases ret <;> simp_all [reading, Reader.busy]

/-- No read leads to the place where the new key is sent. -/
theorem sends_of_received (sends : (r.received buf).stage = .sendNewCardKey) :
    r.stage = .sendNewCardKey := by
  -- Before the new key is sent the card is written, which is no read.
  rcases r.received_cases buf with same | ⟨_, _, stage⟩ | ⟨_, stage⟩ | ⟨_, stage⟩
  · exact same ▸ sends
  · simp [sends] at stage
  · simp [sends] at stage
  · simp [sends] at stage

/-- A session that is in progress after a write was in progress before it. -/
theorem busy_of_wrote (busy : (r.wrote ret).busy = true) : r.busy = true := by
  -- A session that has ended writes nothing.
  unfold wrote at busy
  split at busy <;> cases ret <;> simp_all [Reader.busy]

/-- A session that is in progress after a failed read was in progress before it. -/
theorem busy_of_readFailed (busy : r.readFailed.busy = true) : r.busy = true := by
  -- A session that has ended reads nothing.
  unfold readFailed at busy
  split at busy <;> simp_all [Reader.busy]

/-- A reader waits for an answer about the door when it has asked for it. -/
theorem polls_of_wrote (polls : (r.wrote ret).stage = .recvOpen) :
    r.stage = .sendOpen ∨ r.stage = .recvOpen := by
  -- The other two writes lead to loops of their own.
  unfold wrote at polls
  split at polls <;> cases ret <;> simp_all

end

end Reader

end Rfid
