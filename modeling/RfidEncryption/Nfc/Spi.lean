import Mathlib.Logic.Function.Basic
import RfidEncryption.Memory.Ram
import RfidEncryption.Device.Program
import RfidEncryption.Device.Shift
import RfidEncryption.Basic

/-! The four wires to the chip of the card reader, and the bytes that go over them. -/

namespace Rfid

open Device Memory

/-- What the driver calls: the pins, and the scheduler. -/
inductive GpioCall where
  /-- `gpio_set_level` -/
  | setLevel (pin : UInt8) (level : Bool)
  /-- `gpio_get_level` -/
  | getLevel (pin : UInt8)
  /-- `PN532_DELAY` -/
  | delay (ms : Nat)

/-- The pins and the scheduler as a device. -/
abbrev Gpio : Interface where
  Command := GpioCall
  Answer
    | .setLevel _ _ => Unit
    | .getLevel _ => Bool
    | .delay _ => Unit

/-- `gpio_set_level` -/
def gpioSetLevel (pin : UInt8) (level : Bool) : Program Gpio Unit :=
  Program.command (I := Gpio) (.setLevel pin level)

/-- `gpio_get_level` -/
def gpioGetLevel (pin : UInt8) : Program Gpio Bool := Program.command (I := Gpio) (.getLevel pin)

/-- `PN532_DELAY` -/
def pn532Delay (ms : Nat) : Program Gpio Unit := Program.command (I := Gpio) (.delay ms)

/-- `pn532_t`, in which seven bytes are meant for the identifier of a card. -/
structure Pn532T where
  clk : UInt8
  miso : UInt8
  mosi : UInt8
  ss : UInt8
  uid : Ram UInt8
  uidLen : UInt8
  key : Vector UInt8 6
  inListedTag : UInt8

/-- `pn532_spi_init`, of which the directions of the pins are left out. -/
def pn532SpiInit (obj : Pn532T) (clk miso mosi ss : UInt8) : Program Gpio Pn532T := do
  gpioSetLevel ss true
  pure { obj with clk := clk, miso := miso, mosi := mosi, ss := ss }

/-- The loop of `pn532_spi_write`, over the bits from `i` on. -/
def spiWriteBits (obj : Pn532T) (c : UInt8) (i : Nat) : (left : Nat) → Program Gpio Unit
  | 0 => pure ()
  | left + 1 => do
    gpioSetLevel obj.clk false
    gpioSetLevel obj.mosi (c &&& (1 : UInt8) <<< UInt8.ofNat i != 0)
    gpioSetLevel obj.clk true
    spiWriteBits obj c (i + 1) left

/-- `pn532_spi_write` -/
def pn532SpiWrite (obj : Pn532T) (c : UInt8) : Program Gpio Unit := do
  gpioSetLevel obj.clk true
  spiWriteBits obj c 0 8

/-- The loop of `pn532_spi_read`, over the bits from `i` on. -/
def spiReadBits (obj : Pn532T) (i : Nat) : (left : Nat) → (x : UInt8) → Program Gpio UInt8
  | 0, x => pure x
  | left + 1, x => do
    let level ← gpioGetLevel obj.miso
    gpioSetLevel obj.clk false
    gpioSetLevel obj.clk true
    -- The signed byte of the loop has the same bits as the one returned.
    spiReadBits obj (i + 1) left (if level then x ||| (1 : UInt8) <<< UInt8.ofNat i else x)

/-- `pn532_spi_read` -/
def pn532SpiRead (obj : Pn532T) : Program Gpio UInt8 := do
  gpioSetLevel obj.clk true
  spiReadBits obj 0 8 0

/-- What the rest of the driver calls. -/
inductive BusCall where
  /-- `gpio_set_level` of the pin `_ss` -/
  | setSs (level : Bool)
  /-- `pn532_spi_write` -/
  | write (c : UInt8)
  /-- `pn532_spi_read` -/
  | read
  /-- `PN532_DELAY` -/
  | delay (ms : Nat)

/-- The bus as a device. -/
abbrev Bus : Interface where
  Command := BusCall
  Answer
    | .setSs _ => Unit
    | .write _ => Unit
    | .read => UInt8
    | .delay _ => Unit

/-- What each call of the rest of the driver does to the pins. -/
def onPins (obj : Pn532T) : (c : Bus.Command) → Program Gpio (Bus.Answer c)
  | .setSs level => gpioSetLevel obj.ss level
  | .write c => pn532SpiWrite obj c
  | .read => pn532SpiRead obj
  | .delay ms => pn532Delay ms

/-- Four pins that a chip is wired to. -/
structure Board where
  clk : UInt8
  miso : UInt8
  mosi : UInt8
  ss : UInt8
  apart : [clk, miso, mosi, ss].Nodup

/-- The driver uses the pins that the chip is wired to. -/
structure Pn532T.On (obj : Pn532T) (board : Board) : Prop where
  clk : obj.clk = board.clk
  miso : obj.miso = board.miso
  mosi : obj.mosi = board.mosi
  ss : obj.ss = board.ss

/-- `nfc` as `nfc_task` has initialised it. -/
def readerNfc : Pn532T where
  clk := 18
  miso := 19
  mosi := 23
  ss := 5
  uid := Ram.fresh fun _ => 0
  uidLen := 0
  key := Vector.replicate 6 0
  inListedTag := 0

/-- The board of the reader, with the pins of `main.c`. -/
def readerBoard : Board := ⟨18, 19, 23, 5, by decide⟩

theorem readerNfc_on : readerNfc.On readerBoard := ⟨rfl, rfl, rfl, rfl⟩

/-- The levels of the pins, and the chip at the other end of the wires. -/
structure Wires (σ : Type) where
  level : UInt8 → Bool
  chip : σ

variable {σ : Type}

/-- A chip on its pins, selected by a low level. -/
def wired (board : Board) (chip : Clocked σ) : Handler Gpio (Wires σ)
  | .setLevel pin level, w =>
    ((), {
      level := Function.update w.level pin level
      chip :=
        if pin = board.ss then
          if w.level pin = level then w.chip
          else if level then chip.deselect w.chip else chip.select w.chip
        else if pin = board.clk then
          -- The clock is that of other devices too.
          if w.level board.ss || w.level pin == level then w.chip
          else if level then chip.rise (w.level board.mosi) w.chip else chip.fall w.chip
        else w.chip })
  -- A chip that is not selected lets go of its line, which is low then.
  | .getLevel pin, w =>
    (if pin = board.miso then !w.level board.ss && chip.out w.chip else w.level pin, w)
  | .delay ms, w => ((), { w with chip := chip.wait ms w.chip })

/-- The levels of the bus, and the device it leads to. -/
structure Line (σ : Type) where
  ss : Bool
  mosi : Bool
  device : σ

/-- The level that eight clocks without a bit of their own shift in. -/
def idleByte (mosi : Bool) : UInt8 := if mosi then 255 else 0

/-- A device on a bus, selected by a low level. -/
def bus (d : ByteDevice σ) : Handler Bus (Line σ)
  | .setSs level, l =>
    ((), { l with
      ss := level
      device :=
        if l.ss = level then l.device
        else if level then d.deselect l.device else d.select l.device })
  | .write c, l =>
    ((), { l with
      mosi := (bits c).getD 7 false
      device := if l.ss then l.device else d.exchange c l.device })
  | .read, l =>
    if l.ss then ((0 : UInt8), l)
    else (d.out l.device, { l with device := d.exchange (idleByte l.mosi) l.device })
  | .delay ms, l => ((), { l with device := d.wait ms l.device })

/-- The pins are as the bus says, the clock is high, and no byte is unfinished. -/
structure AtRest (board : Board) (l : Line σ) (w : Wires (Shift σ)) : Prop where
  ss : w.level board.ss = l.ss
  clk : w.level board.clk = true
  mosi : w.level board.mosi = l.mosi
  chip : w.chip = ⟨[], l.device⟩

namespace Board

variable (board : Board)

theorem mosi_ne_clk : board.mosi ≠ board.clk := by
  have apart := board.apart
  simp at apart
  tauto

theorem mosi_ne_ss : board.mosi ≠ board.ss := by
  have apart := board.apart
  simp at apart
  tauto

theorem clk_ne_ss : board.clk ≠ board.ss := by
  have apart := board.apart
  simp at apart
  tauto

end Board

section
variable {τ : Type} (h : Handler Gpio τ) (s : τ)

theorem run_gpioSetLevel (pin : UInt8) (level : Bool) :
    (gpioSetLevel pin level).run h s = some (h (.setLevel pin level) s) := rfl

theorem run_gpioGetLevel (pin : UInt8) :
    (gpioGetLevel pin).run h s = some (h (.getLevel pin) s) := rfl

theorem run_pn532Delay (ms : Nat) : (pn532Delay ms).run h s = some (h (.delay ms) s) := rfl

end

section
variable {board : Board} {obj : Pn532T} (on : obj.On board) (d : ByteDevice σ) (w : Wires (Shift σ))
  (level : Bool)
include on

/-- A level on the data line reaches no chip. -/
theorem run_setMosi :
    (gpioSetLevel obj.mosi level).run (wired board d.shift) w =
      some ((), ⟨Function.update w.level board.mosi level, w.chip⟩) := by
  rw [run_gpioSetLevel, on.mosi]
  simp [wired, board.mosi_ne_ss, board.mosi_ne_clk]

/-- A falling clock reaches a chip that waits for the next rising one. -/
theorem run_setClk_low :
    (gpioSetLevel obj.clk false).run (wired board d.shift) w =
      some ((), ⟨Function.update w.level board.clk false, w.chip⟩) := by
  rw [run_gpioSetLevel, on.clk]
  simp [wired, board.clk_ne_ss, ByteDevice.shift]

/-- A clock that is high already does nothing. -/
theorem run_setClk_same (high : w.level board.clk = true) :
    (gpioSetLevel obj.clk true).run (wired board d.shift) w =
      some ((), ⟨Function.update w.level board.clk true, w.chip⟩) := by
  rw [run_gpioSetLevel, on.clk]
  simp [wired, board.clk_ne_ss, high]

/-- A rising clock shifts a bit into a chip that is selected. -/
theorem run_setClk_rise (low : w.level board.clk = false) :
    (gpioSetLevel obj.clk true).run (wired board d.shift) w =
      some ((), ⟨Function.update w.level board.clk true,
        if w.level board.ss then w.chip else d.shift.rise (w.level board.mosi) w.chip⟩) := by
  rw [run_gpioSetLevel, on.clk]
  simp [wired, board.clk_ne_ss, low]

/-- One pass of the loop shifts in one bit. -/
theorem run_spiWriteBits_succ (c : UInt8) (i left : Nat) :
    (spiWriteBits obj c i (left + 1)).run (wired board d.shift) w =
      (spiWriteBits obj c (i + 1) left).run (wired board d.shift)
        ⟨Function.update (Function.update (Function.update w.level board.clk false) board.mosi
            (c &&& (1 : UInt8) <<< UInt8.ofNat i != 0)) board.clk true,
          if w.level board.ss then w.chip
          else d.shift.rise (c &&& (1 : UInt8) <<< UInt8.ofNat i != 0) w.chip⟩ := by
  simp only [spiWriteBits, Program.run_bind, run_setMosi on, run_setClk_low on, Option.bind_some]
  rw [run_setClk_rise on]
  · simp [board.clk_ne_ss.symm, board.mosi_ne_ss.symm]
  · simp [board.mosi_ne_clk.symm]

/-- The loop shifts in its bits one after the other, and ends with the last one on the data line. -/
theorem run_spiWriteBits (c : UInt8) (i left : Nat) :
    ∃ after, (spiWriteBits obj c i (left + 1)).run (wired board d.shift) w = some ((), after) ∧
      after.level board.ss = w.level board.ss ∧ after.level board.clk = true ∧
      after.level board.mosi = (c &&& (1 : UInt8) <<< UInt8.ofNat (i + left) != 0) ∧
      after.chip = if w.level board.ss then w.chip
        else d.shiftIn ((List.range' i (left + 1)).map fun j =>
          c &&& (1 : UInt8) <<< UInt8.ofNat j != 0) w.chip := by
  induction left generalizing w i with
  | zero =>
    rw [run_spiWriteBits_succ on]
    refine ⟨_, rfl, ?_, ?_, ?_, ?_⟩
    · simp [board.clk_ne_ss.symm, board.mosi_ne_ss.symm]
    · simp
    · simp [board.mosi_ne_clk]
    · simp
  | succ left ih =>
    rw [run_spiWriteBits_succ on]
    obtain ⟨after, ends, ss, clk, mosi, chip⟩ := ih _ (i + 1)
    have last : i + 1 + left = i + (left + 1) := by omega
    rw [last] at mosi
    refine ⟨after, ends, ?_, clk, mosi, ?_⟩
    · simpa [board.clk_ne_ss.symm, board.mosi_ne_ss.symm] using ss
    · rw [chip, @List.range'_succ i (left + 1)]
      cases selected : w.level board.ss <;>
        simp [selected, board.clk_ne_ss.symm, board.mosi_ne_ss.symm]

end

/-- The byte that the loop of `pn532_spi_read` puts together from the levels it finds. -/
def collect (i : Nat) (x : UInt8) : List Bool → UInt8
  | [] => x
  | level :: rest =>
    collect (i + 1) (if level then x ||| (1 : UInt8) <<< UInt8.ofNat i else x) rest

/-- The levels of the bits of a byte are put together as that byte. -/
theorem collect_bits : ∀ byte : UInt8, collect 0 0 (bits byte) = byte := by
  -- There are 256 bytes, each of them checked.
  have all : ∀ n : Fin 256, collect 0 0 (bits (UInt8.ofFin n)) = UInt8.ofFin n := by decide +kernel
  exact fun byte => all byte.toFin

/-- The bits from a place on start with the one at that place. -/
theorem drop_bits (byte : UInt8) {i : Nat} (inside : i < 8) :
    (bits byte).drop i = (bits byte).getD i false :: (bits byte).drop (i + 1) := by
  have within : i < (bits byte).length := by rwa [bits_length]
  rw [List.drop_eq_getElem_cons within]
  simp [List.getElem?_eq_getElem within]

section
variable {board : Board} {obj : Pn532T} (on : obj.On board) (d : ByteDevice σ)
include on

/-- One pass of the loop reads a level and clocks the chip. -/
theorem run_spiReadBits_succ (w : Wires (Shift σ)) (i left : Nat) (x : UInt8) :
    (spiReadBits obj i (left + 1) x).run (wired board d.shift) w =
      (spiReadBits obj (i + 1) left
        (if !w.level board.ss && d.shift.out w.chip then x ||| (1 : UInt8) <<< UInt8.ofNat i
          else x)).run (wired board d.shift)
        ⟨Function.update (Function.update w.level board.clk false) board.clk true,
          if w.level board.ss then w.chip else d.shift.rise (w.level board.mosi) w.chip⟩ := by
  simp only [spiReadBits, Program.run_bind, run_gpioGetLevel, wired, on.miso, if_true,
    Option.bind_some]
  rw [run_setClk_low on, Option.bind_some, run_setClk_rise on]
  · simp [board.clk_ne_ss.symm, board.mosi_ne_clk]
  · simp

/-- A chip that lets go of its line is read as zeros, and not clocked. -/
theorem run_spiReadBits_away (w : Wires (Shift σ)) (away : w.level board.ss = true)
    (high : w.level board.clk = true) (i left : Nat) (x : UInt8) :
    (spiReadBits obj i left x).run (wired board d.shift) w = some (x, w) := by
  induction left generalizing i with
  | zero => rfl
  | succ left ih =>
    rw [run_spiReadBits_succ on]
    simpa [away, ← high] using ih (i + 1)

/-- One pass of the loop over a chip that is selected hands out the next bit of its byte. -/
theorem run_spiReadBits_pass (s : σ) (i left : Nat) (x : UInt8)
    {w : Wires (Shift σ)} (selected : w.level board.ss = false) (high : w.level board.clk = true)
    (chip : w.chip = ⟨List.replicate i (w.level board.mosi), s⟩) :
    (spiReadBits obj i (left + 1) x).run (wired board d.shift) w =
      (spiReadBits obj (i + 1) left
        (if (bits (d.out s)).getD i false then x ||| (1 : UInt8) <<< UInt8.ofNat i else x)).run
        (wired board d.shift) ⟨w.level, d.shift.rise (w.level board.mosi) w.chip⟩ := by
  have same : Function.update w.level board.clk true = w.level := by
    rw [← high, Function.update_eq_self]
  have bit : d.shift.out w.chip = (bits (d.out s)).getD i false := by
    simp [chip, ByteDevice.shift]
  rw [run_spiReadBits_succ on, bit]
  simp [selected, same]

/-- A chip that is selected hands out its byte, and takes in the level of the data line. -/
theorem run_spiReadBits (s : σ) {i left : Nat} (count : i + left = 7) (x : UInt8)
    {w : Wires (Shift σ)} (selected : w.level board.ss = false) (high : w.level board.clk = true)
    (chip : w.chip = ⟨List.replicate i (w.level board.mosi), s⟩) :
    (spiReadBits obj i (left + 1) x).run (wired board d.shift) w =
      some (collect i x ((bits (d.out s)).drop i),
        ⟨w.level, ⟨[], d.exchange (idleByte (w.level board.mosi)) s⟩⟩) := by
  induction left generalizing i x w with
  | zero =>
    -- The eighth clock completes the byte that is taken in.
    obtain rfl : i = 7 := count
    have byte : d.shift.rise (w.level board.mosi) w.chip =
        ⟨[], d.exchange (idleByte (w.level board.mosi)) s⟩ := by
      rw [chip]
      cases w.level board.mosi <;> rfl
    have none : (bits (d.out s)).drop 8 = [] := List.drop_eq_nil_of_le (by simp)
    rw [run_spiReadBits_pass on d s 7 0 x selected high chip, drop_bits _ (by omega), byte]
    simp [spiReadBits, collect, none]
  | succ left ih =>
    -- The level of the data line is shifted in once more.
    have row : d.shift.rise (w.level board.mosi) w.chip =
        ⟨List.replicate (i + 1) (w.level board.mosi), s⟩ := by
      have room : i < 7 := by omega
      simp [chip, ByteDevice.shift, room, List.replicate_succ']
    rw [run_spiReadBits_pass on d s i (left + 1) x selected high chip,
      drop_bits _ (by omega), collect, row]
    exact ih (by omega) _ selected high rfl

/-- `pn532_spi_write` on pins whose clock is high hands over its byte. -/
theorem run_pn532SpiWrite (c : UInt8) {l : Line σ} {w : Wires (Shift σ)}
    (step : AtRest board l w) :
    ∃ after, (pn532SpiWrite obj c).run (wired board d.shift) w = some ((), after) ∧
      AtRest board (bus d (.write c) l).2 after := by
  have high : Function.update w.level board.clk true = w.level := by
    rw [← step.clk, Function.update_eq_self]
  obtain ⟨after, ends, ss, clk, mosi, chip⟩ := run_spiWriteBits on d w c 0 7
  refine ⟨after, ?_, ?_, clk, ?_, ?_⟩
  · rw [pn532SpiWrite, Program.run_bind, run_setClk_same on d w step.clk, high]
    exact ends
  · exact ss.trans step.ss
  · rw [mosi]
    simp [bus, bits, List.range_succ]
  · -- The loop goes through the bits of the byte.
    have row : (List.range' 0 (7 + 1)).map (fun j => c &&& (1 : UInt8) <<< UInt8.ofNat j != 0) =
        bits c := by
      rw [bits, List.range_eq_range']
    rw [chip, row, step.chip, step.ss, d.shiftIn_bits]
    simp only [bus]
    split <;> rfl

/-- `pn532_spi_read` on pins whose clock is high returns the byte that is handed out. -/
theorem run_pn532SpiRead {l : Line σ} {w : Wires (Shift σ)} (step : AtRest board l w) :
    ∃ after, (pn532SpiRead obj).run (wired board d.shift) w = some ((bus d .read l).1, after) ∧
      AtRest board (bus d .read l).2 after := by
  have high : Function.update w.level board.clk true = w.level := by
    rw [← step.clk, Function.update_eq_self]
  rw [pn532SpiRead, Program.run_bind, run_setClk_same on d w step.clk, high, Option.bind_some]
  by_cases away : l.ss = true
  · rw [run_spiReadBits_away on d w (by rw [step.ss, away]) step.clk]
    exact ⟨w, by simp [bus, away], by simpa [bus, away] using step⟩
  · rw [Bool.not_eq_true] at away
    rw [run_spiReadBits on d l.device (i := 0) rfl 0 (by rw [step.ss, away]) step.clk step.chip]
    refine ⟨⟨w.level, ⟨[], d.exchange (idleByte l.mosi) l.device⟩⟩, ?_, ?_, step.clk, ?_, ?_⟩
    · simp [bus, away, collect_bits, step.mosi]
    · simp [bus, away, step.ss]
    · simp [bus, away, step.mosi]
    · simp [bus, away]

/-- Each call of the rest of the driver does on the pins what it does on the bus. -/
theorem onPins_carries (c : Bus.Command) (l : Line σ) (w : Wires (Shift σ))
    (step : AtRest board l w) :
    ∃ after, (onPins obj c).run (wired board d.shift) w = some ((bus d c l).1, after) ∧
      AtRest board (bus d c l).2 after := by
  cases c with
  | setSs level =>
    refine ⟨_, rfl, ?_, ?_, ?_, ?_⟩
    · simp [wired, bus, on.ss]
    · simp [wired, on.ss, board.clk_ne_ss, step.clk]
    · simp [wired, bus, on.ss, board.mosi_ne_ss, step.mosi]
    · -- The register is emptied whenever the level changes.
      simp only [wired, bus, on.ss, if_true, step.ss, step.chip, ByteDevice.shift]
      split_ifs <;> rfl
  | write c => exact run_pn532SpiWrite on d c step
  | read => exact run_pn532SpiRead on d step
  | delay ms =>
    exact ⟨_, rfl, step.ss, step.clk, step.mosi, by simp [wired, bus, step.chip, ByteDevice.shift]⟩

/--
Whatever the rest of the driver does, it does on the pins what it does on the bus.

Every byte that is written reaches the chip as it is, and every byte that is read is the chip's.
-/
theorem spi_refines {α : Type} (p : Program Bus α) {l : Line σ} {w : Wires (Shift σ)}
    (step : AtRest board l w) :
    Option.Rel (fun left right => left.1 = right.1 ∧ AtRest board left.2 right.2)
      (p.run (bus d) l) ((p.interpret (onPins obj)).run (wired board d.shift) w) :=
  Program.run_interpret (onPins_carries on d) p step

end

/-- A byte reaches the chip on the pins, and the one behind it is read there. -/
theorem spi_refines_byte :
    Option.Rel (fun left right => left.1 = right.1 ∧ AtRest readerBoard left.2 right.2)
      ((Program.call (I := Bus) (.write 0xD4) fun _ => .call .read .done).run
        (bus ByteDevice.keeper) ⟨false, false, []⟩)
      (((Program.call (I := Bus) (.write 0xD4) fun _ => .call .read .done).interpret
        (onPins readerNfc)).run (wired readerBoard ByteDevice.keeper.shift)
        ⟨fun pin => pin = 18, ⟨[], []⟩⟩) :=
  spi_refines readerNfc_on ByteDevice.keeper _ ⟨rfl, rfl, rfl, rfl⟩

end Rfid
