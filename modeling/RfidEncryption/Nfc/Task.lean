import RfidEncryption.Nfc.Card
import RfidEncryption.Nfc.Startup

/-! What `nfc_task` makes of a card on the pins, from the first clock after a reset on. -/

namespace Rfid

open Device Memory

variable {σ π : Type}

/-- What `pn532_sendCommandCheckAck` does once the command is written. -/
def checkAck (passes : Nat) (timeout : UInt16) (cmd : Ram UInt8) :
    Program Bus (Bool × Ram UInt8) := do
  if !(← pn532Waitready passes timeout) then pure (false, cmd)
  else if !(← pn532Readack) then pure (false, cmd)
  else if !(← pn532Waitready passes timeout) then pure (false, cmd)
  else pure (true, cmd)

/-- What `nfc_task` does after its dummy command. -/
def nfcTaskRest (passes : Nat) (turns : List Turn) (nfc : Nfc) : Program Bus (List Scan × Nfc) := do
  let (versiondata, nfc) ← pn532GetFirmwareVersion passes nfc
  if versiondata = 0 then .stuck else
  let (_, nfc) ← pn532SAMConfig passes nfc
  nfcTaskLoop passes turns nfc

/-- `nfc_task` on the pins of a board, which it initialises first. -/
def nfcTaskOn (board : Board) (passes : Nat) (turns : List Turn) (nfc : Nfc) :
    Program Gpio (List Scan × Nfc) := do
  let obj ← pn532SpiInit nfc.obj board.clk board.miso board.mosi board.ss
  (nfcTask passes turns { nfc with obj := obj }).interpret (onPins obj)

/-- `nfc_task` selects the chip, waits, and sends its dummy command first. -/
theorem nfcTask_eq (passes : Nat) (turns : List Turn) (nfc : Nfc) :
    nfcTask passes turns nfc =
      ((do setSs false; delay 1000) >>= fun _ =>
        pn532Writecommand (nfc.fill [0x02]).packetbuffer 1 >>= fun cmd => do
          let (_, packetbuffer) ← checkAck passes 1000 cmd
          setSs true
          nfcTaskRest passes turns { nfc with packetbuffer := packetbuffer }) := by
  simp only [nfcTask, pn532Begin, Nfc.sendCommandCheckAck, pn532SendCommandCheckAck, checkAck,
    nfcTaskRest, bind_assoc, pure_bind]
  rfl

section
variable {d : ByteDevice σ} {execute : Bytes → π → Bytes × π} {R : σ → π → List Bytes → Prop}
  {id : Bytes} {holds opened : π → CardBlock → Prop} (obeys : Obeys d execute R)
  (serves : ServesCard execute id holds opened) (four : id.length = 4)
  {s : σ} {p : π} {b : CardBlock}
include obeys serves four

/-- After the dummy command, which was none to the chip, `nfc_task` finds the card. -/
theorem nfcTaskRest_settles (turns : List Turn) (related : R s p []) (held : holds p b)
    (cmd : Ram UInt8) (nfc : Nfc) :
    ∃ s' scans nfc', Program.Settles (bus d)
        (fun passes => do
          let (_, packetbuffer) ← checkAck passes 1000 cmd
          setSs true
          nfcTaskRest passes turns { nfc with packetbuffer := packetbuffer })
        (.closed s) ((scans, nfc'), .closed s') ∧ scans.map Scan.tap = taps id b turns := by
  obtain ⟨s₁, waited, related₁⟩ := obeys.waitready_idle related
  have checked : Program.Settles (bus d) (fun passes => checkAck passes 1000 cmd) (.closed s)
      ((false, cmd), .closed s₁) := waited.bind (.of_run rfl)
  have released : (setSs true).run (bus d) (.closed s₁) = some ((), .closed s₁) := rfl
  -- The version is not zero, and the configuration is never taken for carried out.
  obtain ⟨ic, ver, rev, more, version, held₂⟩ := serves.version held
  obtain ⟨s₂, nfc₂, left₂, number, asked, related₂, value⟩ := obeys.getFirmwareVersion related₁
    { nfc with packetbuffer := cmd } version
  have found : number ≠ 0 := by
    rintro rfl
    rw [UInt32.toNat_zero] at value
    omega
  obtain ⟨configures, held₃⟩ := serves.configured held₂
  obtain ⟨s₃, nfc₃, left₃, configured, related₃, -⟩ := obeys.confirmedBy related₂ nfc₂ 0x15
    (by decide) samCommand (by decide) configures
  obtain ⟨s₄, scans, nfc₄, looped, same⟩ :=
    nfcTaskLoop_settles obeys serves four turns related₃ held₃ nfc₃
  refine ⟨s₄, scans, nfc₄, checked.bind (.bind (.of_run released) (asked.bind ?_)), same⟩
  simp only [if_neg found]
  exact configured.bind looped

end

/-- The pins of the board are initialised while the chip is not selected. -/
theorem run_pn532SpiInit {board : Board} (d : ByteDevice σ) (obj : Pn532T) {w : Wires (Shift σ)}
    (away : w.level board.ss = true) :
    ∃ obj', (pn532SpiInit obj board.clk board.miso board.mosi board.ss).run
        (wired board d.shift) w = some (obj', w) ∧ obj'.On board := by
  have same : Function.update w.level board.ss true = w.level := by
    rw [← away, Function.update_eq_self]
  refine ⟨{ obj with clk := board.clk, miso := board.miso, mosi := board.mosi, ss := board.ss }, ?_,
    ⟨rfl, rfl, rfl, rfl⟩⟩
  rw [pn532SpiInit, Program.run_bind, run_gpioSetLevel]
  simp [wired, away, same]

section
variable {board : Board} {obj : Pn532T} (on : obj.On board) (d : ByteDevice σ)
include on

/-- A chip that is selected starts with an empty register, and is left alone for a second. -/
theorem run_selectAndWait {w : Wires (Shift σ)} {s : σ} (away : w.level board.ss = true)
    (chip : w.chip.device = s) :
    ((do setSs false; delay 1000 : Program Bus Unit).interpret (onPins obj)).run
        (wired board d.shift) w =
      some ((), ⟨Function.update w.level board.ss false, ⟨[], d.wait 1000 (d.select s)⟩⟩) := by
  have selects : (setSs false).interpret (onPins obj) = gpioSetLevel obj.ss false :=
    Program.interpret_command (I := Bus) (onPins obj) (.setSs false)
  have waits : (delay 1000).interpret (onPins obj) = pn532Delay 1000 :=
    Program.interpret_command (I := Bus) (onPins obj) (.delay 1000)
  rw [Program.interpret_bind, Program.run_bind, selects, run_gpioSetLevel, Option.bind_some, waits,
    run_pn532Delay, on.ss]
  simp [wired, away, chip, ByteDevice.shift]

end

/--
From the first clock after a reset on, `nfc_task` finds the card pass by pass, with the block that
was written to it last.

The pins, the bytes, the frames and the commands in between change nothing of it.
-/
theorem nfcTask_taps {board : Board} {d : ByteDevice σ} {execute : Bytes → π → Bytes × π}
    {R : σ → π → List Bytes → Prop} (obeys : Obeys d execute R) {id : Bytes}
    {holds opened : π → CardBlock → Prop} (serves : ServesCard execute id holds opened)
    (four : id.length = 4) {w : Wires (Shift σ)} {p : π} {b : CardBlock}
    (away : w.level board.ss = true) (low : w.level board.clk = false)
    (related : R w.chip.device p []) (held : holds p b) (turns : List Turn) (nfc : Nfc) :
    ∃ scans nfc' enough, scans.map Scan.tap = taps id b turns ∧
      ∀ passes, enough ≤ passes → ∃ after,
        (nfcTaskOn board passes turns nfc).run (wired board d.shift) w =
          some ((scans, nfc'), after) := by
  obtain ⟨obj, starts, on⟩ := run_pn532SpiInit d nfc.obj away
  have lost := obeys.other 1000 related
    (delayed_head (w.level board.mosi) (1 + 1)
      ((nfc.fill [0x02]).packetbuffer.window 0 (sentLength 1)))
  obtain ⟨s', scans, nfc', ⟨enough, ends⟩, same⟩ := nfcTaskRest_settles obeys serves four turns lost
    held ((nfc.fill [0x02]).packetbuffer.loads 0 (sentLength 1)).2 { nfc with obj := obj }
  refine ⟨scans, nfc', enough, same, fun passes large => ?_⟩
  have levels : Function.update w.level board.ss false board.clk = false ∧
      Function.update w.level board.ss false board.mosi = w.level board.mosi :=
    ⟨(Function.update_of_ne board.clk_ne_ss ..).trans low,
      Function.update_of_ne board.mosi_ne_ss ..⟩
  -- The first command is lost, and what follows runs on the pins as on the bus.
  have behind := (first_command_lost on d (fun cmd => do
      let (_, packetbuffer) ← checkAck passes 1000 cmd
      setSs true
      nfcTaskRest passes turns { obj := obj, packetbuffer := packetbuffer })
    (nfc.fill [0x02]).packetbuffer 1
    (w := ⟨Function.update w.level board.ss false, ⟨[], d.wait 1000 (d.select w.chip.device)⟩⟩)
    (Function.update_self ..) levels.1 rfl).2
  simp only [levels.2] at behind
  rw [ends passes large] at behind
  obtain ⟨⟨value, after⟩, ran, rfl, -⟩ := Program.exists_of_rel_some behind
  refine ⟨after, ?_⟩
  rw [nfcTaskOn, Program.run_bind, starts, Option.bind_some, nfcTask_eq, Program.interpret_bind,
    Program.run_bind, run_selectAndWait on d away rfl, Option.bind_some]
  exact ran

/-- A card is found with its block, then with the key that was written to it. -/
theorem nfcTask_taps_written :
    ∃ scans nfc' enough,
      scans.map Scan.tap =
        taps [1, 2, 3, 4] (Vector.replicate 16 7) [⟨9, some (Vector.replicate 15 5)⟩, ⟨9, none⟩] ∧
      ∀ passes, enough ≤ passes → ∃ after,
        (nfcTaskOn readerBoard passes [⟨9, some (Vector.replicate 15 5)⟩, ⟨9, none⟩]
          ⟨readerNfc, Ram.fresh fun _ => 0⟩).run
          (wired readerBoard (promptChip (BlockCard.execute [1, 2, 3, 4])).shift)
          ⟨fun pin => pin = 5, ⟨[], ⟨⟨Vector.replicate 16 7, false⟩, [], []⟩⟩⟩ =
        some ((scans, nfc'), after) :=
  nfcTask_taps (w := ⟨fun pin => pin = 5, ⟨[], ⟨⟨Vector.replicate 16 7, false⟩, [], []⟩⟩⟩)
    (b := Vector.replicate 16 7) (promptChip_obeys _) (blockCard_serves _) rfl rfl rfl ⟨rfl, rfl⟩
    rfl _ _

end Rfid
