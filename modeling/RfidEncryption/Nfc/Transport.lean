import RfidEncryption.Nfc.Spi
import RfidEncryption.Device.Frame

/-! How the driver hands a command to the chip, waits for it, and takes bytes from it. -/

namespace Rfid

open Device Memory

/-- `PN532_SPI_DATAWRITE` -/
abbrev spiDatawrite : UInt8 := 0x01

/-- `PN532_SPI_STATREAD` -/
abbrev spiStatread : UInt8 := 0x02

/-- `PN532_SPI_DATAREAD` -/
abbrev spiDataread : UInt8 := 0x03

/-- `PN532_SPI_READY` -/
abbrev spiReady : UInt8 := 0x01

/-- `PN532_PREAMBLE`, which is `PN532_POSTAMBLE` too -/
abbrev preamble : UInt8 := 0x00

/-- `PN532_STARTCODE2` -/
abbrev startcode2 : UInt8 := 0xFF

/-- `PN532_HOSTTOPN532` -/
abbrev hostToPn532 : UInt8 := 0xD4

/-- `PN532_PN532TOHOST` -/
abbrev pn532ToHost : UInt8 := 0xD5

/-- `gpio_set_level` of the pin `_ss` -/
def setSs (level : Bool) : Program Bus Unit := Program.command (I := Bus) (.setSs level)

/-- `pn532_spi_write` on the bus -/
def spiWrite (c : UInt8) : Program Bus Unit := Program.command (I := Bus) (.write c)

/-- `pn532_spi_read` on the bus -/
def spiRead : Program Bus UInt8 := Program.command (I := Bus) .read

/-- `PN532_DELAY` on the bus -/
def delay (ms : Nat) : Program Bus Unit := Program.command (I := Bus) (.delay ms)

/-- The loop of `pn532_writecommand`, over the bytes from `i` on. -/
def writeBytes (cmd : Ram UInt8) (checksum : UInt8) (i : Nat) :
    (left : Nat) → Program Bus (UInt8 × Ram UInt8)
  | 0 => pure (checksum, cmd)
  | left + 1 => do
    let (byte, cmd) := cmd.load i
    spiWrite byte
    writeBytes cmd (checksum + byte) (i + 1) left

/-- `pn532_writecommand` -/
def pn532Writecommand (cmd : Ram UInt8) (cmdlen : UInt8) : Program Bus (Ram UInt8) := do
  let cmdlen := cmdlen + 1
  setSs false
  delay 10
  spiWrite spiDatawrite
  let checksum := preamble + preamble + startcode2
  spiWrite preamble
  spiWrite preamble
  spiWrite startcode2
  spiWrite cmdlen
  spiWrite (~~~cmdlen + 1)
  spiWrite hostToPn532
  let checksum := checksum + hostToPn532
  -- A length that has wrapped to zero is below the first index.
  let (checksum, cmd) ← writeBytes cmd checksum 0 (cmdlen.toNat - 1)
  spiWrite (~~~checksum)
  spiWrite preamble
  setSs true
  pure cmd

/-- The loop of `pn532_readdata`, over the cells from `i` on. -/
def readBytes (buff : Ram UInt8) (i : Nat) : (left : Nat) → Program Bus (Ram UInt8)
  | 0 => pure buff
  | left + 1 => do
    delay 10
    let x ← spiRead
    readBytes (buff.store i x) (i + 1) left

/-- `pn532_readdata` -/
def pn532Readdata (buff : Ram UInt8) (n : UInt8) : Program Bus (Ram UInt8) := do
  setSs false
  delay 10
  spiWrite spiDataread
  let buff ← readBytes buff 0 n.toNat
  setSs true
  pure buff

/-- `pn532_isready` -/
def pn532Isready : Program Bus Bool := do
  setSs false
  delay 10
  spiWrite spiStatread
  let x ← spiRead
  setSs true
  pure (x = spiReady)

/-- The loop of `pn532_waitready`, for as many passes as it is given. -/
def waitreadyLoop (timeout : UInt16) : (passes : Nat) → (timer : UInt16) → Program Bus Bool
  | 0, _ => .stuck
  | passes + 1, timer => do
    if ← pn532Isready then pure true
    else if timeout = 0 then
      delay 10
      waitreadyLoop timeout passes timer
    else if timer + 10 > timeout then pure false
    else
      delay 10
      waitreadyLoop timeout passes (timer + 10)

/-- `pn532_waitready` -/
def pn532Waitready (passes : Nat) (timeout : UInt16) : Program Bus Bool :=
  waitreadyLoop timeout passes 0

/-- `strncmp` of two texts of at least `n` bytes, the sign of which is that of the result. -/
def strncmp : (n : Nat) → Bytes → Bytes → Int
  | n + 1, a :: front, b :: back =>
    if a ≠ b then a.toNat - b.toNat else if a = 0 then 0 else strncmp n front back
  | _, _, _ => 0

/-- `pn532ack` -/
def pn532ack : Bytes := [0x00, 0x00, 0xFF, 0x00, 0xFF, 0x00]

/-- `pn532_readack`, whose buffer is filled before it is compared. -/
def pn532Readack : Program Bus Bool := do
  let ackbuff ← pn532Readdata (Ram.fresh fun _ => 0) 6
  pure (strncmp 6 (ackbuff.window 0 6) pn532ack = 0)

/-- `pn532_sendCommandCheckAck` -/
def pn532SendCommandCheckAck (passes : Nat) (cmd : Ram UInt8) (cmdlen : UInt8)
    (timeout : UInt16) : Program Bus (Bool × Ram UInt8) := do
  let cmd ← pn532Writecommand cmd cmdlen
  if !(← pn532Waitready passes timeout) then pure (false, cmd)
  else if !(← pn532Readack) then pure (false, cmd)
  else if !(← pn532Waitready passes timeout) then pure (false, cmd)
  else pure (true, cmd)

variable {σ : Type}

/-- The device behind a line once the driver has selected it. -/
def Line.opened (d : ByteDevice σ) (l : Line σ) : σ := if l.ss then d.select l.device else l.device

/-- A line whose device is not selected, with a zero as its last level. -/
def Line.closed (s : σ) : Line σ := ⟨true, false, s⟩

/-- A device that was selected, and to which a message was written. -/
def written (d : ByteDevice σ) (message : Bytes) (s : σ) : σ :=
  d.deselect (d.takeIn message (d.wait 10 s))

/-- A device that was selected, and asked whether it is ready. -/
def asked (d : ByteDevice σ) (s : σ) : UInt8 × σ :=
  let s := d.exchange spiStatread (d.wait 10 s)
  (d.out s, d.deselect (d.exchange 0 s))

/-- A device that was selected, and from which some bytes were taken. -/
def fetched (d : ByteDevice σ) (n : Nat) (s : σ) : Bytes × σ :=
  let (bytes, s) := d.handOut 10 n (d.exchange spiDataread (d.wait 10 s))
  (bytes, d.deselect s)

/-- A device that was asked so many times, and left alone for a while after each of them. -/
def polled (d : ByteDevice σ) (k : Nat) (s : σ) : σ :=
  (fun s => d.wait 10 (asked d (d.select s)).2)^[k] s

/-- What a device that is not ready answers to one more question. -/
def answer (d : ByteDevice σ) (s : σ) (k : Nat) : UInt8 × σ := asked d (d.select (polled d k s))

/-- The timer is past the timeout after so many passes, both of them being sixteen bits wide. -/
def Expired (timeout : UInt16) (passes : Nat) : Prop :=
  timeout ≠ 0 ∧ timeout.toNat < 10 * passes % 65536

/-- The pass on which `pn532_waitready` gives up, if there is one. -/
def patience (timeout : UInt16) : Option Nat :=
  if timeout = 0 ∨ 65534 ≤ timeout.toNat then none
  else if timeout.toNat ≤ 65529 then some (timeout.toNat / 10 + 1)
  -- The timer wraps around before it is past the timeout.
  else some 13107

/-- The bytes that go over the bus for a command. -/
def commandMessage (cmdlen : UInt8) (cmd : Bytes) : Bytes :=
  [spiDatawrite, preamble, preamble, startcode2, cmdlen, ~~~cmdlen + 1, hostToPn532] ++ cmd ++
    [~~~(startcode2 + hostToPn532 + cmd.sum), preamble]

/-- As many bytes of the command are sent as its length says once it has been incremented. -/
def sentLength (cmdlen : UInt8) : Nat := (cmdlen + 1).toNat - 1

section
variable (d : ByteDevice σ) (l : Line σ)

@[simp] theorem Line.opened_closed (s : σ) : (Line.closed s).opened d = d.select s := rfl

/-- The driver selects the device, if it is not selected already. -/
theorem run_setSs_low :
    (setSs false).run (bus d) l = some ((), ⟨false, l.mosi, l.opened d⟩) := by
  cases l with
  | mk ss mosi device => cases ss <;> rfl

/-- A device that is selected is deselected. -/
theorem run_setSs_high (mosi : Bool) (s : σ) :
    (setSs true).run (bus d) ⟨false, mosi, s⟩ = some ((), ⟨true, mosi, d.deselect s⟩) := rfl

/-- A device that is selected takes in a byte. -/
theorem run_spiWrite (c : UInt8) (mosi : Bool) (s : σ) :
    (spiWrite c).run (bus d) ⟨false, mosi, s⟩ =
      some ((), ⟨false, (bits c).getD 7 false, d.exchange c s⟩) := rfl

/-- A device that is selected hands out a byte. -/
theorem run_spiRead (mosi : Bool) (s : σ) :
    spiRead.run (bus d) ⟨false, mosi, s⟩ =
      some (d.out s, ⟨false, mosi, d.exchange (idleByte mosi) s⟩) := rfl

theorem run_delay (ms : Nat) :
    (delay ms).run (bus d) l = some ((), { l with device := d.wait ms l.device }) := rfl

/-- As many bytes are taken as were asked for. -/
@[simp] theorem fetched_length (n : Nat) (s : σ) : (fetched d n s).1.length = n := by
  simp [fetched]

/-- The loop sends the bytes one after the other, and adds them up. -/
theorem run_writeBytes (cmd : Ram UInt8) (checksum : UInt8) (i left : Nat) (s : σ) (mosi : Bool) :
    ∃ mosi', (writeBytes cmd checksum i left).run (bus d) ⟨false, mosi, s⟩ =
      some ((checksum + (cmd.window i left).sum, (cmd.loads i left).2),
        ⟨false, mosi', d.takeIn (cmd.window i left) s⟩) := by
  induction left generalizing cmd checksum i s mosi with
  | zero => exact ⟨mosi, by simp [writeBytes, Ram.window, Ram.loads]⟩
  | succ left ih =>
    obtain ⟨mosi', ends⟩ := ih (cmd.load i).2 (checksum + cmd.cell i) (i + 1)
      (d.exchange (cmd.cell i) s) ((bits (cmd.cell i)).getD 7 false)
    refine ⟨mosi', ?_⟩
    have same : (cmd.load i).2.window (i + 1) left = cmd.window (i + 1) left := rfl
    rw [same] at ends
    rw [Ram.window_succ, Ram.loads_succ, List.sum_cons, ← UInt8.add_assoc]
    exact ends

/-- `pn532_writecommand` writes one message, and reads as much of the command as it sends. -/
theorem run_pn532Writecommand (cmd : Ram UInt8) (cmdlen : UInt8) :
    (pn532Writecommand cmd cmdlen).run (bus d) l =
      some ((cmd.loads 0 (sentLength cmdlen)).2,
        .closed (written d (commandMessage (cmdlen + 1) (cmd.window 0 (sentLength cmdlen)))
          (l.opened d))) := by
  -- Seven bytes come before those of the command, and two behind them.
  obtain ⟨mosi, ends⟩ := run_writeBytes d cmd (preamble + preamble + startcode2 + hostToPn532) 0
    ((cmdlen + 1).toNat - 1)
    (d.takeIn [spiDatawrite, preamble, preamble, startcode2, cmdlen + 1, ~~~(cmdlen + 1) + 1,
      hostToPn532] (d.wait 10 (l.opened d))) ((bits hostToPn532).getD 7 false)
  simp only [pn532Writecommand, Program.run_bind, run_setSs_low, run_delay, run_spiWrite,
    Option.bind_some]
  simp only [ByteDevice.takeIn_cons, ByteDevice.takeIn_nil] at ends
  rw [ends]
  simp only [run_spiWrite, run_setSs_high, Option.bind_some, Program.run_pure]
  simp only [written, commandMessage, ByteDevice.takeIn_append, ByteDevice.takeIn_cons,
    ByteDevice.takeIn_nil]
  rfl

/-- The loop takes the bytes one after the other. -/
theorem run_readBytes (buff : Ram UInt8) (i left : Nat) (s : σ) :
    (readBytes buff i left).run (bus d) ⟨false, false, s⟩ =
      some (buff.stores i (d.handOut 10 left s).1, ⟨false, false, (d.handOut 10 left s).2⟩) := by
  induction left generalizing buff i s with
  | zero => rfl
  | succ left ih =>
    exact ih (buff.store i (d.out (d.wait 10 s))) (i + 1) (d.exchange 0 (d.wait 10 s))

/-- `pn532_readdata` fills the front of its buffer with what the device hands out. -/
theorem run_pn532Readdata (buff : Ram UInt8) (n : UInt8) :
    (pn532Readdata buff n).run (bus d) l =
      some (buff.stores 0 (fetched d n.toNat (l.opened d)).1,
        .closed (fetched d n.toNat (l.opened d)).2) := by
  have level : (bits spiDataread).getD 7 false = false := rfl
  simp only [pn532Readdata, Program.run_bind, run_setSs_low, run_delay, run_spiWrite, level,
    Option.bind_some, run_readBytes, run_setSs_high, Program.run_pure]
  rfl

/-- `pn532_isready` asks the device once. -/
theorem run_pn532Isready :
    pn532Isready.run (bus d) l =
      some (decide ((asked d (l.opened d)).1 = spiReady), .closed (asked d (l.opened d)).2) := by
  have level : (bits spiStatread).getD 7 false = false := rfl
  simp only [pn532Isready, Program.run_bind, run_setSs_low, run_delay, run_spiWrite, level,
    run_spiRead, Option.bind_some, run_setSs_high, Program.run_pure]
  rfl

/-- Where the driver never gives up, the timer is never past the timeout. -/
theorem not_expired {timeout : UInt16} (never : patience timeout = none) (n : Nat) :
    ¬ Expired timeout n := by
  rintro ⟨positive, late⟩
  simp only [patience] at never
  split_ifs at never with limit
  -- The timer is even, so that it stops short of the largest timeouts.
  rcases limit with zero | large
  · exact positive zero
  · omega

/-- Where the driver gives up, the timer is past the timeout then, and not before. -/
theorem expired_first {timeout : UInt16} {n : Nat} (gives : patience timeout = some n) :
    Expired timeout n ∧ ∀ m < n, ¬ Expired timeout m := by
  simp only [patience] at gives
  split_ifs at gives with limit small
  · obtain ⟨positive, -⟩ := not_or.mp limit
    obtain rfl := Option.some.inj gives
    refine ⟨⟨positive, by omega⟩, fun m before => ?_⟩
    rintro ⟨-, late⟩
    omega
  · obtain ⟨positive, bounded⟩ := not_or.mp limit
    obtain rfl := Option.some.inj gives
    refine ⟨⟨positive, by omega⟩, fun m before => ?_⟩
    rintro ⟨-, late⟩
    -- The timer has wrapped around once at most.
    rcases Nat.lt_or_ge (10 * m) 65536 with first | second
    · rw [Nat.mod_eq_of_lt first] at late
      omega
    · rw [Nat.mod_eq_sub_mod second, Nat.mod_eq_of_lt (by omega)] at late
      omega

/-- The driver gives up on the first pass after which the timer is past the timeout. -/
theorem patience_eq_some_iff {timeout : UInt16} {n : Nat} :
    patience timeout = some n ↔ Expired timeout n ∧ ∀ m < n, ¬ Expired timeout m := by
  refine ⟨expired_first, fun ⟨late, before⟩ => ?_⟩
  cases gives : patience timeout with
  | none => exact absurd late (not_expired gives n)
  | some first =>
    -- Two first passes are the same one.
    obtain ⟨late', before'⟩ := expired_first gives
    have above : ¬ first < n := fun less => before first less late'
    have below : ¬ n < first := fun less => before' n less late
    exact congrArg some (by omega)

/-- The timer of the loop, which stands still where there is no timeout. -/
def timerAt (timeout : UInt16) (i : Nat) : UInt16 :=
  if timeout = 0 then 0 else UInt16.ofNat (10 * i)

/-- The timer goes on by ten with every pass. -/
theorem timerAt_succ {timeout : UInt16} (limited : timeout ≠ 0) (i : Nat) :
    timerAt timeout i + 10 = timerAt timeout (i + 1) := by
  rw [timerAt, if_neg limited, timerAt, if_neg limited, Nat.mul_succ, UInt16.ofNat_add]
  rfl

/-- The driver compares the timer after the pass with the timeout. -/
theorem timerAt_gt_iff {timeout : UInt16} (limited : timeout ≠ 0) (i : Nat) :
    timerAt timeout i > timeout ↔ Expired timeout i := by
  rw [timerAt, if_neg limited, gt_iff_lt, UInt16.lt_iff_toNat_lt, UInt16.toNat_ofNat']
  exact (and_iff_right limited).symm

/-- A pass that finds the device ready is the last one. -/
theorem run_waitreadyLoop_ready {timeout timer : UInt16} {s : σ} {i : Nat}
    (ready : (answer d s i).1 = spiReady) (passes : Nat) :
    (waitreadyLoop timeout (passes + 1) timer).run (bus d) (.closed (polled d i s)) =
      some (true, .closed (answer d s i).2) := by
  rw [waitreadyLoop, Program.run_bind, run_pn532Isready, Line.opened_closed, Option.bind_some]
  simp only [answer] at ready
  simp [ready, answer]

/-- A pass that does not is the last one if the timer is past the timeout. -/
theorem run_waitreadyLoop_expired {timeout : UInt16} {s : σ} {i : Nat}
    (busy : (answer d s i).1 ≠ spiReady) (late : Expired timeout (i + 1)) (passes : Nat) :
    (waitreadyLoop timeout (passes + 1) (timerAt timeout i)).run (bus d)
        (.closed (polled d i s)) =
      some (false, .closed (answer d s i).2) := by
  have past : timerAt timeout i + 10 > timeout := by
    rw [timerAt_succ late.1, timerAt_gt_iff late.1]
    exact late
  rw [waitreadyLoop, Program.run_bind, run_pn532Isready, Line.opened_closed, Option.bind_some]
  simp only [answer] at busy
  simp [busy, late.1, past, answer]

/-- Another pass comes behind one that finds neither. -/
theorem run_waitreadyLoop_next {timeout : UInt16} {s : σ} {i : Nat}
    (busy : (answer d s i).1 ≠ spiReady) (early : ¬ Expired timeout (i + 1)) (passes : Nat) :
    (waitreadyLoop timeout (passes + 1) (timerAt timeout i)).run (bus d)
        (.closed (polled d i s)) =
      (waitreadyLoop timeout passes (timerAt timeout (i + 1))).run (bus d)
        (.closed (polled d (i + 1) s)) := by
  have moved : polled d (i + 1) s = d.wait 10 (answer d s i).2 :=
    Function.iterate_succ_apply' ..
  rw [waitreadyLoop, Program.run_bind, run_pn532Isready, Line.opened_closed, Option.bind_some]
  simp only [answer] at busy moved
  rw [moved]
  by_cases forever : timeout = 0
  · simp [busy, forever, timerAt, run_delay, Line.closed]
  · have inside : ¬ timerAt timeout i + 10 > timeout := by
      rw [timerAt_succ forever, timerAt_gt_iff forever]
      exact early
    rw [← timerAt_succ forever]
    simp [busy, forever, inside, run_delay, Line.closed]

/-- The loop ends on the first pass that finds the device ready or the timer past the timeout. -/
theorem run_waitreadyLoop (timeout : UInt16) (passes i : Nat) (s : σ) (ok : Bool) (l : Line σ) :
    (waitreadyLoop timeout passes (timerAt timeout i)).run (bus d)
        (.closed (polled d i s)) = some (ok, l) ↔
      ∃ k, i ≤ k ∧ k < i + passes ∧
        (∀ j, i ≤ j → j < k → (answer d s j).1 ≠ spiReady ∧ ¬ Expired timeout (j + 1)) ∧
        ((answer d s k).1 = spiReady ∧ ok = true ∨
          (answer d s k).1 ≠ spiReady ∧ Expired timeout (k + 1) ∧ ok = false) ∧
        l = .closed (answer d s k).2 := by
  induction passes generalizing i with
  | zero =>
    constructor
    · intro ends
      cases ends
    · rintro ⟨k, low, high, -⟩
      omega
  | succ passes ih =>
    by_cases ready : (answer d s i).1 = spiReady
    · rw [run_waitreadyLoop_ready d ready]
      constructor
      · rintro ⟨⟩
        exact ⟨i, le_rfl, by omega, fun j low high => absurd high (by omega), .inl ⟨ready, rfl⟩,
          rfl⟩
      · rintro ⟨k, low, -, before, result, rfl⟩
        -- No later pass comes behind one that finds the device ready.
        obtain rfl | later := Nat.eq_or_lt_of_le low
        · obtain ⟨-, rfl⟩ | ⟨busy, -⟩ := result
          · rfl
          · exact absurd ready busy
        · exact absurd ready (before i le_rfl later).1
    · by_cases late : Expired timeout (i + 1)
      · rw [run_waitreadyLoop_expired d ready late]
        constructor
        · rintro ⟨⟩
          exact ⟨i, le_rfl, by omega, fun j low high => absurd high (by omega),
            .inr ⟨ready, late, rfl⟩, rfl⟩
        · rintro ⟨k, low, -, before, result, rfl⟩
          obtain rfl | later := Nat.eq_or_lt_of_le low
          · obtain ⟨now, -⟩ | ⟨-, -, rfl⟩ := result
            · exact absurd now ready
            · rfl
          · exact absurd late (before i le_rfl later).2
      · rw [run_waitreadyLoop_next d ready late, ih]
        constructor
        · rintro ⟨k, low, high, before, result, ends⟩
          refine ⟨k, by omega, by omega, fun j below above => ?_, result, ends⟩
          obtain rfl | later := Nat.eq_or_lt_of_le below
          · exact ⟨ready, late⟩
          · exact before j later above
        · rintro ⟨k, low, high, before, result, ends⟩
          obtain rfl | later := Nat.eq_or_lt_of_le low
          · -- This pass is not the last one.
            obtain ⟨now, -⟩ | ⟨-, now, -⟩ := result
            · exact absurd now ready
            · exact absurd now late
          · exact ⟨k, later, by omega, fun j below above => before j (by omega) above, result, ends⟩

/--
`pn532_waitready` ends on the first pass that finds the device ready, or when its patience ends.

Without a timeout, and with one of the two largest, it never gives up.
-/
theorem waitready_iff (passes : Nat) (timeout : UInt16) (s : σ) (ok : Bool) (after : Line σ) :
    (pn532Waitready passes timeout).run (bus d) (.closed s) = some (ok, after) ↔
      ∃ k < passes,
        (∀ j < k, (answer d s j).1 ≠ spiReady) ∧ (∀ n, patience timeout = some n → k < n) ∧
        ((answer d s k).1 = spiReady ∧ ok = true ∨
          (answer d s k).1 ≠ spiReady ∧ patience timeout = some (k + 1) ∧ ok = false) ∧
        after = .closed (answer d s k).2 := by
  have start : timerAt timeout 0 = 0 := by simp [timerAt]
  have loop := run_waitreadyLoop d timeout passes 0 s ok after
  rw [start] at loop
  refine loop.trans (exists_congr fun k => ?_)
  constructor
  · rintro ⟨-, inside, before, result, ends⟩
    -- The timer is not past the timeout before the last pass.
    have early : ∀ m < k + 1, ¬ Expired timeout m := by
      intro m low late
      cases m with
      | zero => exact absurd late.2 (by simp)
      | succ j => exact (before j (Nat.zero_le j) (by omega)).2 late
    refine ⟨by omega, fun j below => (before j (Nat.zero_le j) below).1, fun n gives => ?_, ?_,
      ends⟩
    · by_contra beyond
      exact early n (by omega) (patience_eq_some_iff.mp gives).1
    · rcases result with ready | ⟨busy, late, rfl⟩
      · exact .inl ready
      · exact .inr ⟨busy, patience_eq_some_iff.mpr ⟨late, early⟩, rfl⟩
  · rintro ⟨inside, before, patient, result, ends⟩
    refine ⟨Nat.zero_le k, by omega, fun j _ below => ⟨before j below, fun late => ?_⟩, ?_, ends⟩
    · cases gives : patience timeout with
      | none => exact not_expired gives (j + 1) late
      | some n =>
        have below := patient n gives
        exact (patience_eq_some_iff.mp gives).2 (j + 1) (by omega) late
    · rcases result with ready | ⟨busy, gives, rfl⟩
      · exact .inl ready
      · exact .inr ⟨busy, (patience_eq_some_iff.mp gives).1, rfl⟩

end

/-- The device is ready for the first time when it is asked again, and the driver still waits. -/
structure ReadyAt (d : ByteDevice σ) (timeout : UInt16) (s : σ) (k : Nat) : Prop where
  busy : ∀ j < k, (answer d s j).1 ≠ spiReady
  patient : ∀ n, patience timeout = some n → k < n
  ready : (answer d s k).1 = spiReady

section
variable (d : ByteDevice σ)

/-- `pn532_waitready` succeeds exactly when the device is ready in time. -/
theorem waitready_true_iff (passes : Nat) (timeout : UInt16) (s : σ) (after : Line σ) :
    (pn532Waitready passes timeout).run (bus d) (.closed s) = some (true, after) ↔
      ∃ k < passes, ReadyAt d timeout s k ∧ after = .closed (answer d s k).2 := by
  rw [waitready_iff]
  refine exists_congr fun k => and_congr_right fun _ => ?_
  constructor
  · rintro ⟨busy, patient, ⟨ready, -⟩ | ⟨-, -, ok⟩, ends⟩
    · exact ⟨⟨busy, patient, ready⟩, ends⟩
    · cases ok
  · rintro ⟨⟨busy, patient, ready⟩, ends⟩
    exact ⟨busy, patient, .inl ⟨ready, rfl⟩, ends⟩

/-- Two texts that start with a zero are the same for `strncmp`. -/
theorem strncmp_ack_iff {bytes : Bytes} (long : bytes.length = 6) :
    strncmp 6 bytes pn532ack = 0 ↔ bytes.head? = some 0 := by
  cases bytes with
  | nil => simp at long
  | cons first rest =>
    by_cases zero : first = 0
    · simp [strncmp, pn532ack, zero]
    · have positive : first.toNat ≠ 0 := by
        rw [← UInt8.toNat_zero, ne_eq, UInt8.toNat_inj]
        exact zero
      simpa [strncmp, pn532ack, zero] using positive

/-- `pn532_readack` accepts whatever starts with a zero. -/
theorem run_pn532Readack (s : σ) :
    pn532Readack.run (bus d) (.closed s) =
      some (decide ((fetched d 6 (d.select s)).1.head? = some 0),
        .closed (fetched d 6 (d.select s)).2) := by
  have long := fetched_length d 6 (d.select s)
  have filled :=
    Ram.window_stores (m := Ram.fresh fun _ => (0 : UInt8)) 0 (fetched d 6 (d.select s)).1
  rw [long] at filled
  rw [pn532Readack, Program.run_bind, run_pn532Readdata, Option.bind_some]
  simp only [Line.opened_closed, UInt8.reduceToNat, filled, strncmp_ack_iff long, Program.run_pure]

/--
`pn532_sendCommandCheckAck` succeeds exactly when the device is ready twice, each time in time, and
hands out a zero first in between.

The five bytes behind that zero are not looked at.
-/
theorem sendCommandCheckAck_true_iff (passes : Nat) (cmd cmd' : Ram UInt8) (cmdlen : UInt8)
    (timeout : UInt16) (l after : Line σ) :
    (pn532SendCommandCheckAck passes cmd cmdlen timeout).run (bus d) l =
        some ((true, cmd'), after) ↔
      ∃ k < passes, ∃ k' < passes, ∃ sent acked,
        sent = written d (commandMessage (cmdlen + 1) (cmd.window 0 (sentLength cmdlen)))
          (l.opened d) ∧
        ReadyAt d timeout sent k ∧
        acked = fetched d 6 (d.select (answer d sent k).2) ∧ acked.1.head? = some 0 ∧
        ReadyAt d timeout acked.2 k' ∧
        cmd' = (cmd.loads 0 (sentLength cmdlen)).2 ∧ after = .closed (answer d acked.2 k').2 := by
  rw [pn532SendCommandCheckAck, Program.run_bind, run_pn532Writecommand, Option.bind_some]
  constructor
  · intro ends
    obtain ⟨ready, waited, first, ends⟩ := Program.run_bind_eq_some _ _ |>.mp ends
    cases ready with
    | false => cases ends
    | true =>
      obtain ⟨k, inside, readyAt, rfl⟩ := (waitready_true_iff ..).mp first
      obtain ⟨accepted, _, ack, ends⟩ := Program.run_bind_eq_some _ _ |>.mp ends
      rw [run_pn532Readack] at ack
      cases ack
      split_ifs at ends with refused
      · cases ends
      · obtain ⟨ready, waited, second, ends⟩ := Program.run_bind_eq_some _ _ |>.mp ends
        cases ready with
        | false => cases ends
        | true =>
          obtain ⟨k', inside', readyAt', rfl⟩ := (waitready_true_iff ..).mp second
          cases ends
          exact ⟨k, inside, k', inside', _, _, rfl, readyAt, rfl, by simpa using refused, readyAt',
            rfl, rfl⟩
  · rintro ⟨k, inside, k', inside', sent, acked, rfl, readyAt, rfl, zero, readyAt', rfl, rfl⟩
    -- Each of the three calls succeeds.
    have first := (waitready_true_iff d passes timeout _ _).mpr ⟨k, inside, readyAt, rfl⟩
    have second := (waitready_true_iff d passes timeout _ _).mpr ⟨k', inside', readyAt', rfl⟩
    refine (Program.run_bind_eq_some ..).mpr ⟨true, _, first, ?_⟩
    have ack := run_pn532Readack d (answer d (written d (commandMessage (cmdlen + 1)
      (cmd.window 0 (sentLength cmdlen))) (l.opened d)) k).2
    rw [decide_eq_true zero] at ack
    refine (Program.run_bind_eq_some ..).mpr ⟨true, _, ack, ?_⟩
    exact (Program.run_bind_eq_some ..).mpr ⟨true, _, second, rfl⟩

end

/-- A length that can be incremented is the number of bytes that are sent. -/
theorem sentLength_eq {cmdlen : UInt8} (short : cmdlen ≠ 255) :
    sentLength cmdlen = cmdlen.toNat := by
  have below : cmdlen.toNat ≠ 255 := fun same => short (UInt8.toNat_inj.mp same)
  have size := UInt8.toNat_lt cmdlen
  have next : (cmdlen + 1).toNat = (cmdlen.toNat + 1) % 256 := UInt8.toNat_add cmdlen 1
  rw [sentLength, next]
  omega

/-- The checksum that is sent is the negated sum of the bytes behind the header. -/
theorem not_checksum (sum : UInt8) :
    ~~~(startcode2 + hostToPn532 + sum) = -(hostToPn532 + sum) := by
  rw [UInt8.not_eq_neg_sub]
  grind

/-- The bytes of a command go over the bus as the frame of its payload. -/
theorem commandMessage_eq {cmdlen : UInt8} (short : cmdlen ≠ 255) (cmd : Ram UInt8) :
    commandMessage (cmdlen + 1) (cmd.window 0 (sentLength cmdlen)) =
      spiDatawrite :: Frame.encode (hostToPn532 :: cmd.window 0 cmdlen.toNat) := by
  have length : UInt8.ofNat (hostToPn532 :: cmd.window 0 cmdlen.toNat).length = cmdlen + 1 := by
    rw [List.length_cons, Ram.window_length, UInt8.ofNat_add, UInt8.ofNat_toNat]
    rfl
  rw [commandMessage, sentLength_eq short, not_checksum, Frame.encode, length,
    ← UInt8.neg_eq_not_add, List.sum_cons]
  simp

/--
`pn532_writecommand` sends its command in a frame unless the length is the largest one.

That length wraps around, and no payload is read from the frame.
-/
theorem writecommand_frame_iff (cmd : Ram UInt8) (cmdlen : UInt8) :
    ∃ frame, (∀ (σ : Type) (d : ByteDevice σ) (l : Line σ),
        (pn532Writecommand cmd cmdlen).run (bus d) l =
          some ((cmd.loads 0 (sentLength cmdlen)).2,
            .closed (written d (spiDatawrite :: frame) (l.opened d)))) ∧
      (Frame.decode frame = some (hostToPn532 :: cmd.window 0 cmdlen.toNat) ↔ cmdlen ≠ 255) ∧
      (cmdlen = 255 → Frame.decode frame = none) := by
  by_cases long : cmdlen = 255
  · subst long
    -- A length of zero is that of no payload.
    have none : Frame.decode (commandMessage 0 (cmd.window 0 (sentLength 255))).tail = none := by
      simp [commandMessage, Frame.decode]
    refine ⟨_, fun σ d l => run_pn532Writecommand d l cmd 255, ?_, fun _ => none⟩
    simp [Frame.decode]
  · refine ⟨Frame.encode (hostToPn532 :: cmd.window 0 cmdlen.toNat), fun σ d l => ?_, ?_,
      fun same => absurd same long⟩
    · rw [run_pn532Writecommand, commandMessage_eq long]
    · have size := UInt8.toNat_lt cmdlen
      have below : cmdlen.toNat ≠ 255 := fun same => long (UInt8.toNat_inj.mp same)
      refine iff_of_true (Frame.decode_eq_some_iff.mpr ⟨by simp, ?_, rfl⟩) long
      simp
      omega

end Rfid
