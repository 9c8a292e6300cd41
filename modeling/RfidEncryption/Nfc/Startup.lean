import RfidEncryption.Nfc.Transport

/-! The first command after a reset, for which the clock is not where the driver leaves it. -/

namespace Rfid

open Device Memory

variable {σ : Type}

/-- Some bytes that are written one after the other. -/
def sendAll : Bytes → Program Bus Unit
  | [] => pure ()
  | c :: rest => do
    spiWrite c
    sendAll rest

/-- The loop writes a row of bytes. -/
theorem writeBytes_eq (cmd : Ram UInt8) (checksum : UInt8) (i left : Nat) :
    writeBytes cmd checksum i left = (do
      sendAll (cmd.window i left)
      pure (checksum + (cmd.window i left).sum, (cmd.loads i left).2)) := by
  induction left generalizing cmd checksum i with
  | zero => simp [writeBytes, sendAll, Ram.window, Ram.loads]
  | succ left ih =>
    have same : (cmd.load i).2.window (i + 1) left = cmd.window (i + 1) left := rfl
    rw [Ram.window_succ, Ram.loads_succ, List.sum_cons, ← UInt8.add_assoc, sendAll, bind_assoc]
    exact congrArg (spiWrite (cmd.cell i) >>= ·) (funext fun _ => ih ..)

/-- Two rows of bytes are written one after the other. -/
theorem sendAll_append (front back : Bytes) :
    sendAll (front ++ back) = (do sendAll front; sendAll back) := by
  induction front with
  | nil => rfl
  | cons c rest ih => simp [sendAll, ih]

/-- `pn532_writecommand` selects the chip, writes one message and deselects the chip. -/
theorem pn532Writecommand_eq (cmd : Ram UInt8) (cmdlen : UInt8) :
    pn532Writecommand cmd cmdlen = (do
      setSs false
      delay 10
      sendAll (commandMessage (cmdlen + 1) (cmd.window 0 (sentLength cmdlen)))
      setSs true
      pure (cmd.loads 0 (sentLength cmdlen)).2) := by
  have start : preamble + preamble + startcode2 = startcode2 := rfl
  simp only [pn532Writecommand, writeBytes_eq, commandMessage, sendAll_append, sendAll, bind_assoc,
    pure_bind, start, sentLength]

/-- A command that arrives one bit late does not start as one. -/
theorem delayed_head (ahead : Bool) (cmdlen : UInt8) (cmd : Bytes) :
    (delayed ahead (commandMessage cmdlen cmd)).head? ≠ some spiDatawrite := by
  have first : (delayed ahead (commandMessage cmdlen cmd)).head? =
      some (ofBits (ahead :: (bits spiDatawrite).take 7)) := rfl
  rw [first]
  -- The one of its first byte is in the second place.
  cases ahead <;> decide

section
variable {board : Board} {obj : Pn532T} (on : obj.On board) (d : ByteDevice σ)
include on

/-- A byte that is written to a selected chip is shifted in, behind a rising clock if any. -/
theorem run_pn532SpiWrite_bits (c : UInt8) (w : Wires (Shift σ))
    (selected : w.level board.ss = false) :
    ∃ after, (pn532SpiWrite obj c).run (wired board d.shift) w = some ((), after) ∧
      after.level board.ss = false ∧ after.level board.clk = true ∧
      after.level board.mosi = (bits c).getD 7 false ∧
      after.chip = d.shiftIn (bits c)
        (if w.level board.clk then w.chip else d.shift.rise (w.level board.mosi) w.chip) := by
  have row : (List.range' 0 (7 + 1)).map (fun j => c &&& (1 : UInt8) <<< UInt8.ofNat j != 0) =
      bits c := by
    rw [bits, List.range_eq_range']
  have last : (bits c).getD 7 false = (c &&& (1 : UInt8) <<< UInt8.ofNat 7 != 0) := by
    simp [bits, List.range_succ]
  -- The clock is high before the first bit.
  have start : (gpioSetLevel obj.clk true).run (wired board d.shift) w =
      some ((), ⟨Function.update w.level board.clk true,
        if w.level board.clk then w.chip else d.shift.rise (w.level board.mosi) w.chip⟩) := by
    by_cases high : w.level board.clk = true
    · rw [run_setClk_same on d w high, if_pos high]
    · rw [Bool.not_eq_true] at high
      rw [run_setClk_rise on d w high, high, selected]
  have same : Function.update w.level board.clk true board.ss = false := by
    rw [Function.update_of_ne board.clk_ne_ss.symm, selected]
  obtain ⟨after, ends, ss, clk, mosi, chip⟩ := run_spiWriteBits on d
    ⟨Function.update w.level board.clk true,
      if w.level board.clk then w.chip else d.shift.rise (w.level board.mosi) w.chip⟩ c 0 7
  refine ⟨after, ?_, ss.trans same, clk, mosi.trans last.symm, ?_⟩
  · rw [pn532SpiWrite, Program.run_bind, start]
    exact ends
  · rw [chip, row]
    simp only [same]
    rfl

/-- Bytes that are written to a chip that is selected are shifted in one after the other. -/
theorem run_sendAll (message : Bytes) (last : UInt8) (w : Wires (Shift σ))
    (selected : w.level board.ss = false) (high : w.level board.clk = true) :
    ∃ after, ((sendAll (message ++ [last])).interpret (onPins obj)).run (wired board d.shift) w =
        some ((), after) ∧
      after.level board.ss = false ∧ after.level board.clk = true ∧
      after.level board.mosi = (bits last).getD 7 false ∧
      after.chip = d.shiftIn ((message ++ [last]).flatMap bits) w.chip := by
  have carried (c : UInt8) : (spiWrite c).interpret (onPins obj) = pn532SpiWrite obj c :=
    Program.interpret_command (I := Bus) (onPins obj) (.write c)
  induction message generalizing w with
  | nil =>
    obtain ⟨after, ends, ss, clk, mosi, chip⟩ := run_pn532SpiWrite_bits on d last w selected
    refine ⟨after, ?_, ss, clk, mosi, ?_⟩
    · rw [List.nil_append, sendAll, Program.interpret_bind, Program.run_bind, carried, ends]
      rfl
    · rw [chip, if_pos high, List.nil_append, List.flatMap_singleton]
  | cons c rest ih =>
    obtain ⟨first, ends, ss, clk, -, chip⟩ := run_pn532SpiWrite_bits on d c w selected
    obtain ⟨after, later, ss', clk', mosi, chip'⟩ := ih first ss clk
    refine ⟨after, ?_, ss', clk', mosi, ?_⟩
    · rw [List.cons_append, sendAll, Program.interpret_bind, Program.run_bind, carried, ends]
      exact later
    · rw [chip', chip, if_pos high, List.cons_append, List.flatMap_cons, ByteDevice.shiftIn_append]

/-- Bytes that are written over a clock that is low arrive one bit late. -/
theorem run_sendAll_low (first : UInt8) (rest : Bytes) (last : UInt8) (w : Wires (Shift σ)) (s : σ)
    (selected : w.level board.ss = false) (low : w.level board.clk = false)
    (chip : w.chip = ⟨[], s⟩) :
    ∃ after, ((sendAll (first :: rest ++ [last])).interpret (onPins obj)).run
        (wired board d.shift) w = some ((), after) ∧
      after.level board.ss = false ∧ after.level board.clk = true ∧
      after.level board.mosi = (bits last).getD 7 false ∧
      after.chip = ⟨[leftOver (w.level board.mosi) (first :: rest ++ [last])],
        d.takeIn (delayed (w.level board.mosi) (first :: rest ++ [last])) s⟩ := by
  obtain ⟨middle, ends, ss, clk, -, late⟩ := run_pn532SpiWrite_bits on d first w selected
  obtain ⟨after, later, ss', clk', mosi, chip'⟩ := run_sendAll on d rest last middle ss clk
  refine ⟨after, ?_, ss', clk', mosi, ?_⟩
  · have carried : (spiWrite first).interpret (onPins obj) = pn532SpiWrite obj first :=
      Program.interpret_command (I := Bus) (onPins obj) (.write first)
    rw [List.cons_append, sendAll, Program.interpret_bind, Program.run_bind, carried, ends]
    exact later
  · -- The clock that rises first has shifted in the level of the data line.
    have ahead : d.shift.rise (w.level board.mosi) ⟨[], s⟩ = ⟨[w.level board.mosi], s⟩ := by
      simp [ByteDevice.shift]
    rw [chip', late, low, chip, ← ByteDevice.shiftIn_append, ← List.flatMap_cons]
    simp only [Bool.false_eq_true, if_false]
    rw [ahead, ← List.cons_append, ByteDevice.shiftIn_delayed]

/-- A chip that is selected already stays so. -/
theorem run_setSs_same (w : Wires (Shift σ)) (selected : w.level board.ss = false) :
    ((setSs false).interpret (onPins obj)).run (wired board d.shift) w = some ((), w) := by
  have carried : (setSs false).interpret (onPins obj) = gpioSetLevel obj.ss false :=
    Program.interpret_command (I := Bus) (onPins obj) (.setSs false)
  have same : Function.update w.level board.ss false = w.level := by
    rw [← selected, Function.update_eq_self]
  rw [carried, run_gpioSetLevel, on.ss]
  simp [wired, selected, same]

/-- A chip that is deselected forgets the bits it has not used. -/
theorem run_setSs_release (w : Wires (Shift σ)) (selected : w.level board.ss = false) :
    ((setSs true).interpret (onPins obj)).run (wired board d.shift) w =
      some ((), ⟨Function.update w.level board.ss true, ⟨[], d.deselect w.chip.device⟩⟩) := by
  have carried : (setSs true).interpret (onPins obj) = gpioSetLevel obj.ss true :=
    Program.interpret_command (I := Bus) (onPins obj) (.setSs true)
  rw [carried, run_gpioSetLevel, on.ss]
  simp [wired, selected, ByteDevice.shift]

/-- A command over a clock that is low arrives one bit late, and leaves the bus in step. -/
theorem run_pn532Writecommand_low (cmd : Ram UInt8) (cmdlen : UInt8) {w : Wires (Shift σ)} {s : σ}
    (selected : w.level board.ss = false) (low : w.level board.clk = false)
    (chip : w.chip = ⟨[], s⟩) :
    ∃ after, ((pn532Writecommand cmd cmdlen).interpret (onPins obj)).run (wired board d.shift) w =
        some ((cmd.loads 0 (sentLength cmdlen)).2, after) ∧
      AtRest board (.closed (written d (delayed (w.level board.mosi)
        (commandMessage (cmdlen + 1) (cmd.window 0 (sentLength cmdlen)))) s)) after := by
  have paused : ((delay 10).interpret (onPins obj)).run (wired board d.shift) w =
      some ((), ⟨w.level, ⟨[], d.wait 10 s⟩⟩) := by
    have carried : (delay 10).interpret (onPins obj) = pn532Delay 10 :=
      Program.interpret_command (I := Bus) (onPins obj) (.delay 10)
    rw [carried, run_pn532Delay]
    simp [wired, chip, ByteDevice.shift]
  -- The message starts with one byte, and ends with another one.
  obtain ⟨middle, ends, ss, clk, mosi, late⟩ := run_sendAll_low on d spiDatawrite
    ([preamble, preamble, startcode2, cmdlen + 1, ~~~(cmdlen + 1) + 1, hostToPn532] ++
      cmd.window 0 (sentLength cmdlen) ++
      [~~~(startcode2 + hostToPn532 + (cmd.window 0 (sentLength cmdlen)).sum)])
    preamble ⟨w.level, ⟨[], d.wait 10 s⟩⟩ (d.wait 10 s) selected low rfl
  have message : spiDatawrite :: ([preamble, preamble, startcode2, cmdlen + 1, ~~~(cmdlen + 1) + 1,
        hostToPn532] ++ cmd.window 0 (sentLength cmdlen) ++
        [~~~(startcode2 + hostToPn532 + (cmd.window 0 (sentLength cmdlen)).sum)]) ++ [preamble] =
      commandMessage (cmdlen + 1) (cmd.window 0 (sentLength cmdlen)) := by
    simp [commandMessage]
  have level : (bits preamble).getD 7 false = false := rfl
  rw [message] at ends late
  rw [level] at mosi
  refine ⟨⟨Function.update middle.level board.ss true, ⟨[], d.deselect middle.chip.device⟩⟩,
    ?_, ?_⟩
  · rw [pn532Writecommand_eq]
    simp only [Program.interpret_bind]
    refine (Program.run_bind_eq_some ..).mpr ⟨(), w, run_setSs_same on d w selected, ?_⟩
    refine (Program.run_bind_eq_some ..).mpr ⟨(), _, paused, ?_⟩
    refine (Program.run_bind_eq_some ..).mpr ⟨(), middle, ends, ?_⟩
    exact (Program.run_bind_eq_some ..).mpr ⟨(), _, run_setSs_release on d middle ss, rfl⟩
  · refine ⟨by simp [Line.closed], ?_, ?_, ?_⟩
    · exact (Function.update_of_ne board.clk_ne_ss ..).trans clk
    · exact (Function.update_of_ne board.mosi_ne_ss ..).trans mosi
    · simp only [late, Line.closed, written]

/--
Over a clock that is low the chip takes the first command for something else, and whatever follows
reaches it as it is.

This is what the dummy command of `pn532_begin` is for.
-/
theorem first_command_lost {α : Type} (p : Ram UInt8 → Program Bus α) (cmd : Ram UInt8)
    (cmdlen : UInt8) {w : Wires (Shift σ)} {s : σ} (selected : w.level board.ss = false)
    (low : w.level board.clk = false) (chip : w.chip = ⟨[], s⟩) :
    (delayed (w.level board.mosi)
        (commandMessage (cmdlen + 1) (cmd.window 0 (sentLength cmdlen)))).head? ≠
      some spiDatawrite ∧
    Option.Rel (fun left right => left.1 = right.1 ∧ AtRest board left.2 right.2)
      ((p (cmd.loads 0 (sentLength cmdlen)).2).run (bus d)
        (.closed (written d (delayed (w.level board.mosi)
          (commandMessage (cmdlen + 1) (cmd.window 0 (sentLength cmdlen)))) s)))
      (((pn532Writecommand cmd cmdlen >>= p).interpret (onPins obj)).run
        (wired board d.shift) w) := by
  obtain ⟨after, ends, rest⟩ := run_pn532Writecommand_low on d cmd cmdlen selected low chip
  refine ⟨delayed_head _ _ _, ?_⟩
  rw [Program.interpret_bind, Program.run_bind, ends, Option.bind_some]
  exact spi_refines on d _ rest

end

/-- The chip takes the dummy command one bit late, and is asked whether it is ready in step. -/
theorem first_command_lost_dummy :
    (delayed false (commandMessage (1 + 1)
        ((Ram.fresh fun _ => 0x02).window 0 (sentLength 1)))).head? ≠ some spiDatawrite ∧
    Option.Rel (fun left right => left.1 = right.1 ∧ AtRest readerBoard left.2 right.2)
      (pn532Isready.run (bus ByteDevice.keeper)
        (.closed (written ByteDevice.keeper (delayed false (commandMessage (1 + 1)
          ((Ram.fresh fun _ => 0x02).window 0 (sentLength 1)))) [])))
      (((pn532Writecommand (Ram.fresh fun _ => 0x02) 1 >>= fun _ => pn532Isready).interpret
        (onPins readerNfc)).run (wired readerBoard ByteDevice.keeper.shift)
        ⟨fun _ => false, ⟨[], []⟩⟩) :=
  first_command_lost readerNfc_on ByteDevice.keeper (fun _ => pn532Isready)
    (Ram.fresh fun _ => 0x02) 1 (w := ⟨fun _ => false, ⟨[], []⟩⟩) rfl rfl rfl

end Rfid
