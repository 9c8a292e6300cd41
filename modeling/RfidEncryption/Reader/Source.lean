import RfidEncryption.Device.Contract
import RfidEncryption.Reader.CardWrite
import RfidEncryption.Reader.Wire

/-! `https_request` call by call, with the memory it takes and gives back. -/

namespace Rfid

open Device

/-- What `https_request` takes memory for, or has memory taken for. -/
inductive EspBlock where
  | key | crt | tls | clientSession | root | jsonData | root2 | newKeyData
  deriving DecidableEq, Repr

/-- The arrays on the stack that a request is written from. -/
inductive Buffer where
  | request | newKeyRequest | heartbeatRequest
  deriving DecidableEq, Repr

/-- The place of `https_request` that writes from an array. -/
def Buffer.stage : Buffer → Stage
  | .request => .sendUidKey
  | .newKeyRequest => .sendNewCardKey
  | .heartbeatRequest => .sendOpen

/-- What one `esp_tls_conn_read` returns when it returns something. -/
structure Chunk where
  bytes : Bytes
  some : 1 ≤ bytes.length
  fits : bytes.length ≤ readLength

/-- The calls of `https_request`. -/
inductive EspCall where
  /-- `malloc`, or `cJSON_CreateObject` with the strings that are added. -/
  | malloc (block : EspBlock)
  /-- `cJSON_PrintUnformatted` -/
  | printUnformatted (text object : EspBlock) (address : Nat)
  /-- `free`, `cJSON_Delete` or `esp_tls_conn_destroy` -/
  | free (block : EspBlock) (address : Nat)
  /-- `flash_reader`, with the block it fills. -/
  | flashReader (block : EspBlock) (address : Nat)
  | connHttpNew (crt key : Nat) (clientSession : Option Nat)
  | getClientSession (tls : Nat)
  | connWrite (buffer : Buffer) (tls : Nat) (text : Bytes)
  | connRead (tls : Nat)
  | espRandom
  | cardWriteOnBlock (uid : Uid) (data : CardKey)
  /-- The blue light is started, and the task waits. -/
  | blinkAndDelay

/-- The libraries `https_request` calls, as a device. -/
abbrev Esp : Interface where
  Command := EspCall
  Answer
    | .malloc _ => Nat
    | .printUnformatted _ _ _ => Nat
    | .free _ _ => Unit
    | .flashReader _ _ => Nat
    | .connHttpNew _ _ _ => Option Nat
    | .getClientSession _ => Option Nat
    | .connWrite _ _ _ => Bool
    | .connRead _ => Option Chunk
    | .espRandom => UInt32
    | .cardWriteOnBlock _ _ => Pn532
    | .blinkAndDelay => Unit

namespace Esp

/-- One call. -/
abbrev call (c : EspCall) : Program Esp (Esp.Answer c) := Program.command (I := Esp) c

/-- `generate_random_hex` -/
def generateRandomHex : (length : Nat) → Program Esp (Vector UInt8 length)
  | 0 => pure #v[]
  | length + 1 => do
    let buffer ← generateRandomHex length
    let random ← call .espRandom
    pure (buffer.push (random % 256).toUInt8)

/-- The loop behind the request for the door. -/
def sendOpen (tls : Nat) : (passes : Nat) → Program Esp Bool
  | 0 => .stuck
  | passes + 1 => do
    let _ ← call (.connWrite .heartbeatRequest tls (snprintf 64 heartbeatText))
    match ← call (.connRead tls) with
    | none => pure false
    | some buf =>
      if Text.strstr buf.bytes (utf8 "200 OK") then pure true
      else if Text.strstr buf.bytes (utf8 "400 Bad") then pure false
      else do
        call .blinkAndDelay
        sendOpen tls passes

/-- The server has been told of the new key. -/
def recvNewCardKey (passes tls : Nat) : Program Esp Bool := do
  let buf ← call (.connRead tls)
  -- The buffer was cleared, so a read of nothing leaves no text in it.
  if Text.strstr ((buf.map Chunk.bytes).getD []) (utf8 "IS_OK:NO") then do
    call (.free .tls tls)
    pure false
  else do
    let systemPass ← sendOpen tls passes
    call (.free .tls tls)
    pure systemPass

/-- The card was written, and the server is told of its new key. -/
def sendNewCardKey (passes tls : Nat) (uid : Uid) (randomBytes : CardKey) : Program Esp Bool := do
  let root2 ← call (.malloc .root2)
  let newKeyJson :=
    newCardKeyJson (bytesToHexString uid.toList) (bytesToHexString randomBytes.toList)
  let _ ← call (.printUnformatted .newKeyData .root2 root2)
  let ret ← call (.connWrite .newKeyRequest tls (snprintf 512 (postText newKeyJson)))
  call (.free .root2 root2)
  -- The connection stays open when the write has failed.
  if !ret then pure false else recvNewCardKey passes tls

/-- The card is given a new key. -/
def writeCard (passes tls : Nat) (uid : Uid) : Program Esp Bool := do
  let randomBytes ← generateRandomHex 15
  let pn532 ← call (.cardWriteOnBlock uid randomBytes)
  if (cardWriteOnBlock4 pn532 randomBytes).1 ≠ 0 then do
    call (.free .tls tls)
    pure false
  else sendNewCardKey passes tls uid randomBytes

/-- The loop behind the request that names the card. -/
def recvUidKey (tls : Nat) : (passes : Nat) → Program Esp Bool
  | 0 => .stuck
  | passes + 1 => do
    match ← call (.connRead tls) with
    | none => pure false
    | some buf =>
      if Text.strstr buf.bytes (utf8 "200 OK") then pure true else recvUidKey tls passes

/-- The server is told of the card and its key. -/
def sendUidKey (passes tls : Nat) (uid : Uid) (cardKey : CardKey) : Program Esp Bool := do
  let root ← call (.malloc .root)
  let json := uidKeyJson (bytesToHexString uid.toList) (bytesToHexString cardKey.toList)
  let jsonData ← call (.printUnformatted .jsonData .root root)
  call (.free .root root)
  let ret ← call (.connWrite .request tls (snprintf 1024 (postText json)))
  if !ret then do
    -- The text of the request is not freed.
    call (.free .tls tls)
    pure false
  else do
    call (.free .jsonData jsonData)
    if ← recvUidKey tls passes then writeCard passes tls uid
    else do
      call (.free .tls tls)
      pure false

/-- The connection, for which the session of the first one is used again. -/
def connect (passes crt key : Nat) (saved : Option Nat) (uid : Uid) (cardKey : CardKey) :
    Program Esp (Bool × Option Nat) := do
  match ← call (.connHttpNew crt key saved) with
  | none => pure (false, saved)
  | some tls => do
    let saved ← match saved with
      | none => call (.getClientSession tls)
      | some session => pure (some session)
    let systemPass ← sendUidKey passes tls uid cardKey
    pure (systemPass, saved)

/-- `https_request`, with the `saved_client_session` before and after it. -/
def httpsRequest (passes : Nat) (saved : Option Nat) (uid : Uid) (cardKey : CardKey) :
    Program Esp (Bool × Option Nat) := do
  let key ← call (.malloc .key)
  let keySize ← call (.flashReader .key key)
  let crt ← call (.malloc .crt)
  let certSize ← call (.flashReader .crt crt)
  let (systemPass, saved) ←
    (if keySize = 0 then pure (false, saved)
    else if certSize = 0 then pure (false, saved)
    else connect passes crt key saved uid cardKey)
  -- Every way out of it leads here.
  call (.free .key key)
  call (.free .crt crt)
  pure (systemPass, saved)

/-- The requests for some cards, one behind the other. -/
def sessions (passes : Nat) : (taps : List (Uid × CardKey)) → (saved : Option Nat) →
    Program Esp (List Bool × Option Nat)
  | [], saved => pure ([], saved)
  | (uid, cardKey) :: taps, saved => do
    let (pass, saved) ← httpsRequest passes saved uid cardKey
    let (rest, saved) ← sessions passes taps saved
    pure (pass :: rest, saved)

/-- A session whose first request cannot be written. -/
def unwrittenSession : List (Event Esp) :=
  [⟨.malloc .key, (1 : Nat)⟩, ⟨.flashReader .key 1, (1704 : Nat)⟩, ⟨.malloc .crt, (2 : Nat)⟩,
    ⟨.flashReader .crt 2, (1200 : Nat)⟩, ⟨.connHttpNew 2 1 none, some (3 : Nat)⟩,
    ⟨.getClientSession 3, some (4 : Nat)⟩, ⟨.malloc .root, (5 : Nat)⟩,
    ⟨.printUnformatted .jsonData .root 5, (6 : Nat)⟩, ⟨.free .root 5, ()⟩,
    ⟨.connWrite .request 3 (snprintf 1024 (postText
      (uidKeyJson (bytesToHexString bobUid.toList) (bytesToHexString (firstKey bobUid).toList)))),
      false⟩,
    ⟨.free .tls 3, ()⟩, ⟨.free .key 1, ()⟩, ⟨.free .crt 2, ()⟩]

/-- It is one `https_request` can have. -/
theorem unwrittenSession_leaves (passes : Nat) :
    (httpsRequest passes none bobUid (firstKey bobUid)).Leaves unwrittenSession
      (pure (false, some 4)) := by
  repeat refine .call _ _ _ ?_
  exact .none _

/-- It is one that requests in a row can have. -/
theorem unwrittenSession_sessions (passes : Nat) :
    (sessions passes [(bobUid, firstKey bobUid)] none).Leaves unwrittenSession
      (pure ([false], some 4)) := by
  repeat refine .call _ _ _ ?_
  exact .none _

end Esp

end Rfid
