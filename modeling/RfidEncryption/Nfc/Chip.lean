import RfidEncryption.Nfc.Peer

/-! A chip that follows the frames at once, and what the driver tells of any that follows them. -/

namespace Rfid

open Device Memory

/-- A chip: what is in front of it, the frames that wait, and what it took since it was selected. -/
structure Chip (π : Type) where
  peer : π
  waiting : List Bytes
  taken : Bytes

section
variable {π : Type} (execute : Bytes → π → Bytes × π)

/-- What a chip does with the bytes it took, once it is deselected. -/
def Chip.conclude (c : Chip π) : Chip π :=
  match c.taken with
  | 0x01 :: frame =>
    match Frame.decode frame with
    | some (0xD4 :: cmd) =>
      ⟨(execute cmd c.peer).2, [Frame.ack, responseFrame (execute cmd c.peer).1], []⟩
    | _ => { c with taken := [] }
  | 0x03 :: _ => { c with waiting := c.waiting.tail, taken := [] }
  | _ => { c with taken := [] }

/-- The byte that a chip hands out next. -/
def Chip.next (c : Chip π) : UInt8 :=
  match c.taken with
  | [0x02] => if c.waiting.isEmpty then 0 else spiReady
  | 0x03 :: zeros => (c.waiting.headD []).getD zeros.length 0
  | _ => 0

/-- A chip that is ready as soon as a frame waits. -/
def promptChip : ByteDevice (Chip π) where
  select c := { c with taken := [] }
  deselect c := c.conclude execute
  out c := c.next
  exchange byte c := { c with taken := c.taken ++ [byte] }
  wait _ c := c

/-- The chip is what it is, and the frames that wait are those. -/
def ChipState (c : Chip π) (p : π) (waiting : List Bytes) : Prop := c.peer = p ∧ c.waiting = waiting

/-- Nothing waits in a chip that has taken nothing yet. -/
theorem chipState_rest (p : π) : ChipState (⟨p, [], []⟩ : Chip π) p [] := ⟨rfl, rfl⟩

@[simp] theorem promptChip_select (c : Chip π) :
    (promptChip execute).select c = { c with taken := [] } := rfl

@[simp] theorem promptChip_deselect (c : Chip π) :
    (promptChip execute).deselect c = c.conclude execute := rfl

@[simp] theorem promptChip_out (c : Chip π) : (promptChip execute).out c = c.next := rfl

@[simp] theorem promptChip_exchange (byte : UInt8) (c : Chip π) :
    (promptChip execute).exchange byte c = { c with taken := c.taken ++ [byte] } := rfl

@[simp] theorem promptChip_wait (ms : Nat) (c : Chip π) : (promptChip execute).wait ms c = c := rfl

/-- A chip takes a message in byte by byte. -/
theorem promptChip_takeIn (message : Bytes) (c : Chip π) :
    (promptChip execute).takeIn message c = { c with taken := c.taken ++ message } := by
  induction message generalizing c with
  | nil => simp
  | cons byte rest ih => simp [ih]

/-- A chip hands a frame out from where it has stopped. -/
theorem promptChip_handOut (n : Nat) (c : Chip π) (zeros : Bytes)
    (taken : c.taken = 0x03 :: zeros) :
    (promptChip execute).handOut 10 n c =
      ((List.range n).map fun i => (c.waiting.headD []).getD (zeros.length + i) 0,
        { c with taken := c.taken ++ List.replicate n 0 }) := by
  induction n generalizing c zeros with
  | zero => simp [ByteDevice.handOut]
  | succ n ih =>
    -- The next byte of the frame is handed out, and the rest behind it.
    have next : c.next = (c.waiting.headD []).getD zeros.length 0 := by
      simp [Chip.next, taken]
    have rest := ih { c with taken := c.taken ++ [0] } (zeros ++ [0]) (by simp [taken])
    rw [ByteDevice.handOut]
    simp only [promptChip_wait, promptChip_out, promptChip_exchange, next, rest]
    simp [List.range_succ_eq_map, List.replicate_succ, Nat.add_assoc, Nat.add_comm 1]

/-- A chip says whether a frame waits. -/
theorem promptChip_asked (c : Chip π) :
    asked (promptChip execute) ((promptChip execute).select c) =
      (if c.waiting.isEmpty then 0 else spiReady, { c with taken := [] }) := rfl

/-- A chip hands out the frame that waits first, and forgets it. -/
theorem promptChip_fetched (n : Nat) (c : Chip π) :
    fetched (promptChip execute) n ((promptChip execute).select c) =
      ((List.range n).map fun i => (c.waiting.headD []).getD i 0,
        { c with waiting := c.waiting.tail, taken := [] }) := by
  have handed := promptChip_handOut execute n { c with taken := [spiDataread] } [] rfl
  simp only [fetched, promptChip_select, promptChip_wait, promptChip_exchange, List.nil_append,
    handed, promptChip_deselect]
  simp [Chip.conclude]

/-- The chip does what the driver expects of it. -/
theorem promptChip_obeys : Obeys (promptChip execute) execute (ChipState (π := π)) where
  command {s p waiting} cmd related short := by
    obtain ⟨rfl, rfl⟩ := related
    have payload : Frame.decode (Frame.encode (hostToPn532 :: cmd)) = some (hostToPn532 :: cmd) :=
      Frame.decode_eq_some_iff.mpr ⟨by simp, by simp; omega, rfl⟩
    simp [written, promptChip_takeIn, Chip.conclude, payload, ChipState]
  ready {s p frame rest} related := by
    obtain ⟨rfl, same⟩ := related
    have told : answer (promptChip execute) s 0 = (spiReady, { s with taken := [] }) := by
      rw [answer, polled, Function.iterate_zero, id, promptChip_asked, same]
      rfl
    exact ⟨0, by simp, by rw [told], by simp, by rw [told]; exact ⟨rfl, same⟩⟩
  handed {s p frame rest} n related := by
    obtain ⟨rfl, same⟩ := related
    rw [promptChip_fetched, same]
    refine ⟨fun i asked inside => ?_, rest, ⟨rfl, rfl⟩, fun _ => rfl⟩
    simp [asked, inside]
  kept ms related := related
  idle {s p} related := by
    obtain ⟨rfl, same⟩ := related
    have busy : (0 : UInt8) ≠ spiReady := by decide
    rw [promptChip_asked, same]
    exact ⟨busy, rfl, rfl⟩
  other {s p message} ms related other := by
    obtain ⟨rfl, same⟩ := related
    simp only [written, promptChip_takeIn, promptChip_wait, promptChip_select, promptChip_deselect,
      List.nil_append, Chip.conclude]
    split
    · exact absurd rfl other
    · simp [ChipState, same]
    · exact ⟨rfl, same⟩

end

section
variable {σ π : Type} {d : ByteDevice σ} {execute : Bytes → π → Bytes × π}
  {R : σ → π → List Bytes → Prop} {s : σ} {p : π} {waiting : List Bytes}

/--
Neither `pn532_SAMConfig` nor `pn532_writeGPIO` succeeds on a chip that follows the frames, although
it confirms both commands.

The byte they look at is the one that tells the direction of the frame.
-/
theorem configuration_unconfirmed (obeys : Obeys d execute R) (related : R s p waiting) (nfc : Nfc)
    (pinstate : UInt8) (configures : (execute samCommand p).1 = [0x15])
    (sets : (execute (writeGpioCommand pinstate) p).1 = [0x0F]) :
    (∃ s' nfc', Program.Settles (bus d) (fun passes => pn532SAMConfig passes nfc) (.closed s)
      ((false, nfc'), .closed s') ∧ nfc'.packetbuffer.cell 5 = pn532ToHost) ∧
    ∃ s' nfc', Program.Settles (bus d) (fun passes => pn532WriteGPIO passes pinstate nfc)
      (.closed s) ((false, nfc'), .closed s') ∧ nfc'.packetbuffer.cell 5 = pn532ToHost := by
  obtain ⟨s₁, nfc₁, -, configured, -, direction₁⟩ := obeys.confirmedBy related nfc 0x15
    (by decide) samCommand (by decide) (by rw [configures]; decide)
  obtain ⟨s₂, nfc₂, -, written, -, direction₂⟩ := obeys.confirmedBy related nfc 0x0F (by decide)
    (writeGpioCommand pinstate) (by simp [writeGpioCommand]) (by rw [sets]; decide)
  exact ⟨⟨s₁, nfc₁, configured, direction₁⟩, s₂, nfc₂, written, direction₂⟩

/-- A chip that has carried out both commands is not taken at its word. -/
theorem configuration_unconfirmed_prompt :
    (∃ s' nfc', Program.Settles (bus (promptChip fun cmd (_ : Unit) => ([cmd.headD 0 + 1], ())))
      (fun passes => pn532SAMConfig passes ⟨readerNfc, Ram.fresh fun _ => 0⟩)
      (.closed ⟨(), [], []⟩) ((false, nfc'), .closed s') ∧
      nfc'.packetbuffer.cell 5 = pn532ToHost) ∧
    ∃ s' nfc', Program.Settles (bus (promptChip fun cmd (_ : Unit) => ([cmd.headD 0 + 1], ())))
      (fun passes => pn532WriteGPIO passes 1 ⟨readerNfc, Ram.fresh fun _ => 0⟩)
      (.closed ⟨(), [], []⟩) ((false, nfc'), .closed s') ∧
      nfc'.packetbuffer.cell 5 = pn532ToHost :=
  configuration_unconfirmed (promptChip_obeys _) (chipState_rest ()) _ 1 rfl rfl

/--
The version that `pn532_getFirmwareVersion` returns is never zero, and has the code of the response
where the name of the chip is meant to be.

Every other byte of it is one place too far back.
-/
theorem firmwareVersion_shifted (obeys : Obeys d execute R) (related : R s p waiting) (nfc : Nfc)
    {ic ver rev : UInt8} {more : Bytes}
    (answers : (execute [0x02] p).1 = [0x03, ic, ver, rev] ++ more) :
    ∃ s' nfc' version, Program.Settles (bus d) (fun passes => pn532GetFirmwareVersion passes nfc)
        (.closed s) ((version, nfc'), .closed s') ∧
      version ≠ 0 ∧ version.toNat / 2 ^ 24 = 0x03 ∧ version.toNat / 2 ^ 16 % 256 = ic.toNat ∧
      version.toNat / 2 ^ 8 % 256 = ver.toNat ∧ version.toNat % 256 = rev.toNat := by
  obtain ⟨s', nfc', -, version, settles, -, value⟩ := obeys.getFirmwareVersion related nfc answers
  have icSize := UInt8.toNat_lt ic
  have verSize := UInt8.toNat_lt ver
  have revSize := UInt8.toNat_lt rev
  refine ⟨s', nfc', version, settles, ?_, by omega, by omega, by omega, by omega⟩
  rintro rfl
  rw [UInt32.toNat_zero] at value
  omega

/-- A chip whose name is 0x32 is told as one whose name is three. -/
theorem firmwareVersion_shifted_prompt :
    ∃ s' nfc' version, Program.Settles
        (bus (promptChip fun _ (_ : Unit) => ([0x03, 0x32, 1, 6, 7], ())))
        (fun passes => pn532GetFirmwareVersion passes ⟨readerNfc, Ram.fresh fun _ => 0⟩)
        (.closed ⟨(), [], []⟩) ((version, nfc'), .closed s') ∧
      version ≠ 0 ∧ version.toNat / 2 ^ 24 = 0x03 ∧
      version.toNat / 2 ^ 16 % 256 = (0x32 : UInt8).toNat ∧
      version.toNat / 2 ^ 8 % 256 = (1 : UInt8).toNat ∧ version.toNat % 256 = (6 : UInt8).toNat :=
  firmwareVersion_shifted (promptChip_obeys _) (chipState_rest ()) _ rfl

end

end Rfid
