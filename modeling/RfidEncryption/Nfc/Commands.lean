import RfidEncryption.Nfc.Transport
import RfidEncryption.Reader.CardBlock

/-! The commands of the driver, and the two places of the firmware that use them. -/

namespace Rfid

open Device Memory

/-- The driver: `pn532_t`, and the buffer that every command shares. -/
structure Nfc where
  obj : Pn532T
  packetbuffer : Ram UInt8

namespace Nfc

variable (nfc : Nfc)

/-- The front of the buffer is filled with a command. -/
def fill (command : Bytes) : Nfc := { nfc with packetbuffer := nfc.packetbuffer.stores 0 command }

/-- The front of the buffer is sent as a command. -/
def sendCommandCheckAck (passes : Nat) (cmdlen : UInt8) (timeout : UInt16) :
    Program Bus (Bool × Nfc) := do
  let (acked, packetbuffer) ←
    pn532SendCommandCheckAck passes nfc.packetbuffer cmdlen timeout
  pure (acked, { nfc with packetbuffer := packetbuffer })

/-- The front of the buffer is filled with what the chip hands out. -/
def readdata (n : UInt8) : Program Bus Nfc := do
  let packetbuffer ← pn532Readdata nfc.packetbuffer n
  pure { nfc with packetbuffer := packetbuffer }

/-- One byte of the buffer. -/
def byte (i : Nat) : UInt8 × Nfc :=
  let (value, packetbuffer) := nfc.packetbuffer.load i
  (value, { nfc with packetbuffer := packetbuffer })

/-- A row of bytes of the buffer. -/
def row (start count : Nat) : Vector UInt8 count × Nfc :=
  let (values, packetbuffer) := nfc.packetbuffer.loads start count
  (values, { nfc with packetbuffer := packetbuffer })

end Nfc

/-- `pn532_begin` -/
def pn532Begin (passes : Nat) (nfc : Nfc) : Program Bus Nfc := do
  setSs false
  delay 1000
  let (_, nfc) ← (nfc.fill [0x02]).sendCommandCheckAck passes 1 1000
  setSs true
  pure nfc

/-- `pn532response_firmwarevers` -/
def pn532responseFirmwarevers : Bytes := [0x00, 0xFF, 0x06, 0xFA, 0xD5, 0x03]

/-- `pn532_getFirmwareVersion` -/
def pn532GetFirmwareVersion (passes : Nat) (nfc : Nfc) : Program Bus (UInt32 × Nfc) := do
  let (acked, nfc) ← (nfc.fill [0x02]).sendCommandCheckAck passes 1 1000
  if !acked then pure (0, nfc) else
  let nfc ← nfc.readdata 12
  let (front, nfc) := nfc.row 0 6
  if strncmp 6 front.toList pn532responseFirmwarevers ≠ 0 then pure (0, nfc) else
  let (response, nfc) := nfc.row 6 4
  pure (response.toList.foldl (fun value byte => value <<< 8 ||| byte.toUInt32) (0 : UInt32), nfc)

/-- A command whose response is told by one byte of it. -/
def confirmedBy (offset : Nat) (code : UInt8) (passes : Nat) (command : Bytes) (nfc : Nfc) :
    Program Bus (Bool × Nfc) := do
  let (acked, nfc) ←
    (nfc.fill command).sendCommandCheckAck passes (UInt8.ofNat command.length) 1000
  if !acked then pure (false, nfc) else
  let nfc ← nfc.readdata 8
  let (answer, nfc) := nfc.byte offset
  pure (answer = code, nfc)

/-- The command that sets the pins of the chip, of which two are always left high. -/
def writeGpioCommand (pinstate : UInt8) : Bytes :=
  [0x0E, (0x80 : UInt8) ||| (pinstate ||| ((1 : UInt8) <<< 2 ||| (1 : UInt8) <<< 4)), 0x00]

/-- `pn532_writeGPIO` -/
def pn532WriteGPIO (passes : Nat) (pinstate : UInt8) (nfc : Nfc) : Program Bus (Bool × Nfc) :=
  confirmedBy 5 0x0F passes (writeGpioCommand pinstate) nfc

/-- The command that configures the access module. -/
def samCommand : Bytes := [0x14, 0x01, 0x14, 0x01]

/-- `pn532_SAMConfig` -/
def pn532SAMConfig (passes : Nat) (nfc : Nfc) : Program Bus (Bool × Nfc) :=
  confirmedBy 5 0x15 passes samCommand nfc

/-- `pn532_readPassiveTargetID`, with the identifier and its length where the caller keeps them. -/
def pn532ReadPassiveTargetID (passes : Nat) (cardbaudrate : UInt8) (timeout : UInt16)
    (uid : Ram UInt8) (uidLength : UInt8) (nfc : Nfc) :
    Program Bus (Bool × Ram UInt8 × UInt8 × Nfc) := do
  let (acked, nfc) ← (nfc.fill [0x4A, 1, cardbaudrate]).sendCommandCheckAck passes 3 timeout
  if !acked then pure (false, uid, uidLength, nfc) else
  let nfc ← nfc.readdata 20
  let (found, nfc) := nfc.byte 7
  if found ≠ 1 then pure (false, uid, uidLength, nfc) else
  let (length, nfc) := nfc.byte 12
  -- Nothing bounds the length by the size of either array.
  let (id, nfc) := nfc.row 13 length.toNat
  pure (true, uid.stores 0 id.toList, length, nfc)

/-- `pn532_mifareclassic_AuthenticateBlock` -/
def pn532MifareclassicAuthenticateBlock (passes : Nat) (uid : Ram UInt8) (uidLen : UInt8)
    (blockNumber : UInt32) (keyNumber : UInt8) (keyData : Vector UInt8 6) (nfc : Nfc) :
    Program Bus (UInt8 × Ram UInt8 × Nfc) := do
  let (id, uid) := uid.loads 0 uidLen.toNat
  let kept := nfc.obj.uid.stores 0 id.toList
  let nfc := nfc.fill ([0x40, 1, if keyNumber ≠ 0 then 0x61 else 0x60, blockNumber.toUInt8] ++
    keyData.toList)
  -- The identifier is taken from where it has just been kept.
  let (id, kept) := kept.loads 0 uidLen.toNat
  let nfc : Nfc :=
    { obj := { nfc.obj with key := keyData, uid := kept, uidLen := uidLen }
      packetbuffer := nfc.packetbuffer.stores 10 id.toList }
  let (acked, nfc) ← nfc.sendCommandCheckAck passes (10 + uidLen) 1000
  if !acked then pure (0, uid, nfc) else
  let nfc ← nfc.readdata 12
  let (status, nfc) := nfc.byte 7
  pure (if status ≠ 0 then 0 else 1, uid, nfc)

/-- A read of a block or of some pages, of which the first bytes are kept. -/
def mifareRead {count : Nat} (passes : Nat) (page : UInt8) (data : Vector UInt8 count) (nfc : Nfc) :
    Program Bus (UInt8 × Vector UInt8 count × Nfc) := do
  let (acked, nfc) ← (nfc.fill [0x40, 1, 0x30, page]).sendCommandCheckAck passes 4 1000
  if !acked then pure (0, data, nfc) else
  let nfc ← nfc.readdata 26
  let (status, nfc) := nfc.byte 7
  if status ≠ 0 then pure (0, data, nfc) else
  let (content, nfc) := nfc.row 8 count
  pure (1, content, nfc)

/-- A write of a block or of a page, whose response is taken and not looked at. -/
def mifareWrite {count : Nat} (passes : Nat) (command page : UInt8) (data : Vector UInt8 count)
    (nfc : Nfc) : Program Bus (UInt8 × Nfc) := do
  let (acked, nfc) ← (nfc.fill ([0x40, 1, command, page] ++ data.toList)).sendCommandCheckAck
    passes (UInt8.ofNat (4 + count)) 1000
  if !acked then pure (0, nfc) else
  delay 10
  let nfc ← nfc.readdata 26
  pure (1, nfc)

/-- `pn532_mifareclassic_ReadDataBlock` -/
def pn532MifareclassicReadDataBlock (passes : Nat) (blockNumber : UInt8) (data : CardBlock)
    (nfc : Nfc) : Program Bus (UInt8 × CardBlock × Nfc) :=
  mifareRead passes blockNumber data nfc

/-- `pn532_mifareclassic_WriteDataBlock` -/
def pn532MifareclassicWriteDataBlock (passes : Nat) (blockNumber : UInt8) (data : CardBlock)
    (nfc : Nfc) : Program Bus (UInt8 × Nfc) :=
  mifareWrite passes 0xA0 blockNumber data nfc

/-- `pn532_mifareultralight_ReadPage` -/
def pn532MifareultralightReadPage (passes : Nat) (page : UInt8) (buffer : Vector UInt8 4)
    (nfc : Nfc) : Program Bus (UInt8 × Vector UInt8 4 × Nfc) :=
  if page ≥ 64 then pure (0, buffer, nfc) else mifareRead passes page buffer nfc

/-- `pn532_mifareultralight_WritePage` -/
def pn532MifareultralightWritePage (passes : Nat) (page : UInt8) (data : Vector UInt8 4)
    (nfc : Nfc) : Program Bus (UInt8 × Nfc) :=
  if page ≥ 64 then pure (0, nfc) else mifareWrite passes 0xA2 page data nfc

/-- `pn532_ntag2xx_ReadPage` -/
def pn532Ntag2xxReadPage (passes : Nat) (page : UInt8) (buffer : Vector UInt8 4)
    (nfc : Nfc) : Program Bus (UInt8 × Vector UInt8 4 × Nfc) :=
  if page ≥ 231 then pure (0, buffer, nfc) else mifareRead passes page buffer nfc

/-- `pn532_ntag2xx_WritePage` -/
def pn532Ntag2xxWritePage (passes : Nat) (page : UInt8) (data : Vector UInt8 4)
    (nfc : Nfc) : Program Bus (UInt8 × Nfc) :=
  if page < 4 ∨ page > 225 then pure (0, nfc) else mifareWrite passes 0xA2 page data nfc

/-- `keyA` -/
def keyA : Vector UInt8 6 := #v[0xFF, 0xFF, 0xFF, 0xFF, 0xFF, 0xFF]

/-- The command that authenticates block 4 of a card with the key of the firmware. -/
def authenticateCommand (id : Bytes) : Bytes := [0x40, 1, 0x60, 4] ++ keyA.toList ++ id

/-- The command that reads block 4. -/
def readCommand : Bytes := [0x40, 1, 0x30, 4]

/-- The command that writes block 4. -/
def writeCommand (block : CardBlock) : Bytes := [0x40, 1, 0xA0, 4] ++ block.toList

/-- What one pass of the loop of `nfc_task` learns of a card. -/
structure Scan where
  success : Bool
  uid : Ram UInt8
  uidLength : UInt8
  keyRW : UInt8
  cardKey1 : CardBlock

/-- What the pass hands to `https_request`, if it calls it. -/
def Scan.tap (scan : Scan) : Option (Uid × CardKey) :=
  if scan.keyRW ≠ 0 ∧ scan.success = true then
    some (scan.uid.block 0 7, cardKeyOf scan.cardKey1)
  else none

/-- One pass of the loop of `nfc_task`, up to its call of `https_request`. -/
def nfcTaskPass (passes : Nat) (uidLength : UInt8) (nfc : Nfc) : Program Bus (Scan × Nfc) := do
  let (success, uid, uidLength, nfc) ←
    pn532ReadPassiveTargetID passes 0x00 0 (Ram.fresh fun _ => 0) uidLength nfc
  -- The block is read whether a card was found or not, and whether it lets the reader in or not.
  let (_, uid, nfc) ← pn532MifareclassicAuthenticateBlock passes uid uidLength 4 0 keyA nfc
  let (keyRW, cardKey1, nfc) ←
    pn532MifareclassicReadDataBlock passes 4 (Vector.replicate 16 0) nfc
  pure (⟨success, uid, uidLength, keyRW, cardKey1⟩, nfc)

/-- The calls `card_write_on_block` makes, the first result of which is dropped. -/
def cardWriteOnBlockCalls (passes : Nat) (uid : Uid) (data : CardKey) (nfc : Nfc) :
    Program Bus (UInt8 × UInt8 × Nfc) := do
  let (authenticated, _, nfc) ← pn532MifareclassicAuthenticateBlock passes
    (Ram.fresh fun i => uid.toList.getD i 0) 4 4 0 keyA nfc
  let (written, nfc) ← pn532MifareclassicWriteDataBlock passes 4 (block4 data) nfc
  pure (authenticated, written, nfc)

/-- What one pass finds on the stack, and what `https_request` writes to a card in it. -/
structure Turn where
  uidLength : UInt8
  data : Option CardKey

/-- What `https_request` does to the card of a pass, if it is called and gets as far. -/
def writeBack (passes : Nat) (tap : Option (Uid × CardKey)) (data : Option CardKey) (nfc : Nfc) :
    Program Bus Nfc :=
  match tap, data with
  | some (uid, _), some data => do
    let (_, _, nfc) ← cardWriteOnBlockCalls passes uid data nfc
    pure nfc
  | _, _ => pure nfc

/-- The loop of `nfc_task`, for some passes. -/
def nfcTaskLoop (passes : Nat) : List Turn → Nfc → Program Bus (List Scan × Nfc)
  | [], nfc => pure ([], nfc)
  | turn :: rest, nfc => do
    let (scan, nfc) ← nfcTaskPass passes turn.uidLength nfc
    let nfc ← writeBack passes scan.tap turn.data nfc
    let (scans, nfc) ← nfcTaskLoop passes rest nfc
    pure (scan :: scans, nfc)

/-- `nfc_task`, which waits for ever when it finds no chip. -/
def nfcTask (passes : Nat) (turns : List Turn) (nfc : Nfc) : Program Bus (List Scan × Nfc) := do
  let nfc ← pn532Begin passes nfc
  let (versiondata, nfc) ← pn532GetFirmwareVersion passes nfc
  if versiondata = 0 then .stuck else
  let (_, nfc) ← pn532SAMConfig passes nfc
  nfcTaskLoop passes turns nfc

end Rfid
