import RfidEncryption.Nfc.Commands

/-! A chip that follows the frames, and what the driver makes of its responses. -/

namespace Rfid

open Device Memory

variable {σ π : Type}

/-- The frame of a response, which goes the other way. -/
def responseFrame (response : Bytes) : Bytes := Frame.encode (pn532ToHost :: response)

/-- `PN532_RESPONSE_INLISTPASSIVETARGET` -/
abbrev responseInlistpassivetarget : UInt8 := 0x4B

/--
What the driver expects of a chip, which carries out commands for a card in front of it.

The relation tells what the chip and the card are, and which frames wait to be taken.
-/
structure Obeys (d : ByteDevice σ) (execute : Bytes → π → Bytes × π)
    (R : σ → π → List Bytes → Prop) : Prop where
  /-- A frame with a command is carried out, and confirmed before the response. -/
  command : ∀ {s p waiting} (cmd : Bytes), R s p waiting → cmd.length ≤ 254 →
    R (written d (spiDatawrite :: Frame.encode (hostToPn532 :: cmd)) (d.select s))
      (execute cmd p).2 [Frame.ack, responseFrame (execute cmd p).1]
  /-- A frame is announced when it waits: in a second, unless a card is waited for. -/
  ready : ∀ {s p frame rest}, R s p (frame :: rest) →
    ∃ k, (∀ j < k, (answer d s j).1 ≠ spiReady) ∧ (answer d s k).1 = spiReady ∧
      (frame.getD 6 0 ≠ responseInlistpassivetarget → k ≤ 100) ∧
        R (answer d s k).2 p (frame :: rest)
  /-- A frame is handed out from its first byte on, and is gone when it was taken as a whole. -/
  handed : ∀ {s p frame rest} (n : Nat), R s p (frame :: rest) →
    (∀ i, i < n → i < frame.length →
      (fetched d n (d.select s)).1[i]? = frame[i]?) ∧
    ∃ left, R (fetched d n (d.select s)).2 p left ∧ (frame.length ≤ n → left = rest)
  /-- Frames wait however long they are left. -/
  kept : ∀ {s p waiting} (ms : Nat), R s p waiting → R (d.wait ms s) p waiting
  /-- A chip without a frame that waits is not ready, and asking it changes nothing. -/
  idle : ∀ {s p}, R s p [] →
    (asked d (d.select s)).1 ≠ spiReady ∧ R (asked d (d.select s)).2 p []
  /-- A message that does not start as one with a command is none. -/
  other : ∀ {s p message} (ms : Nat), R s p [] → message.head? ≠ some spiDatawrite →
    R (written d message (d.wait ms (d.select s))) p []

/-- The driver waits as long as it may take the chip. -/
def WaitsFor (timeout : UInt16) (response : Bytes) : Prop :=
  timeout = 0 ∨ timeout = 1000 ∧ response.head? ≠ some responseInlistpassivetarget

/-- Only the response to a listing of cards is one that may take longer. -/
theorem responseFrame_code {response : Bytes}
    (other : response.head? ≠ some responseInlistpassivetarget) :
    (responseFrame response).getD 6 0 ≠ responseInlistpassivetarget := by
  cases response with
  | nil => decide
  | cons code rest => simpa [responseFrame, Frame.encode] using other

/-- The bytes of a response come behind the six of its header. -/
theorem responseFrame_getElem {response : Bytes} {j : Nat} (inside : j < response.length) :
    (responseFrame response)[6 + j]? = response[j]? := by
  have behind : (responseFrame response)[j + 6]? =
      (response ++ [-(pn532ToHost :: response).sum, 0])[j]? := rfl
  rw [Nat.add_comm, behind, List.getElem?_append_left inside]

/-- The response to an exchange of data comes within a second. -/
theorem waitsFor_exchange {response : Bytes} (exchange : response.head? = some 0x41) :
    WaitsFor 1000 response :=
  .inr ⟨rfl, by rw [exchange]; decide⟩

/-- The bytes of an identifier come behind those of the command in the buffer. -/
theorem window_fill_append (nfc : Nfc) (front back : Bytes) :
    (Ram.stores front.length back (nfc.fill front).packetbuffer).window 0
      (front.length + back.length) = front ++ back := by
  have whole := Ram.stores_append (m := nfc.packetbuffer) 0 front back
  rw [Nat.zero_add] at whole
  rw [Nfc.fill, ← whole, ← List.length_append, Ram.window_stores]

/-- A part of a response that was asked for is a row of the buffer. -/
theorem window_of_response {m : Ram UInt8} (front values : Bytes) {more : Bytes} {n : Nat}
    (bytes : ∀ j, 6 + j < n → j < (front ++ values ++ more).length →
      (front ++ values ++ more)[j]? = some (m.cell (6 + j)))
    (asked : 6 + front.length + values.length ≤ n) :
    m.window (6 + front.length) values.length = values := by
  refine Ram.window_eq_iff.mpr fun j inside => ?_
  have byte := bytes (front.length + j) (by omega) (by simp; omega)
  rw [List.append_assoc, List.getElem?_append_right (by omega), Nat.add_sub_cancel_left,
    List.getElem?_append_left inside, List.getElem?_eq_getElem inside, ← Nat.add_assoc] at byte
  exact (Option.some.inj byte).symm

/-- A byte that is smaller than the largest one is not that one. -/
theorem ne_largest {byte : UInt8} (smaller : byte.toNat < 255) : byte ≠ 255 := by
  rintro rfl
  exact absurd smaller (by decide)

/-- A byte is put behind the others of a number that has room for it. -/
theorem toNat_shift_or {value : UInt32} (room : value.toNat < 2 ^ 24) (byte : UInt8) :
    (value <<< 8 ||| byte.toUInt32).toNat = value.toNat * 256 + byte.toNat := by
  have size := UInt8.toNat_lt byte
  have shifted : (value <<< 8).toNat = value.toNat * 256 := by
    rw [UInt32.toNat_shiftLeft, Nat.shiftLeft_eq]
    exact Nat.mod_eq_of_lt (by simp; omega)
  have apart := Nat.two_pow_add_eq_or_of_lt (i := 8) size value.toNat
  rw [UInt32.toNat_or, shifted, UInt8.toNat_toUInt32, Nat.mul_comm]
  exact apart.symm

section
variable {d : ByteDevice σ} {execute : Bytes → π → Bytes × π} {R : σ → π → List Bytes → Prop}
  (obeys : Obeys d execute R) {s : σ} {p : π}
include obeys

/-- `pn532_waitready` succeeds when a frame waits that the driver waits for. -/
theorem Obeys.waitready {frame : Bytes} {rest : List Bytes} (related : R s p (frame :: rest))
    (timeout : UInt16)
    (patient : timeout = 0 ∨ timeout = 1000 ∧ frame.getD 6 0 ≠ responseInlistpassivetarget) :
    ∃ s', Program.Settles (bus d) (fun passes => pn532Waitready passes timeout) (.closed s)
        (true, .closed s') ∧ R s' p (frame :: rest) := by
  obtain ⟨k, busy, ready, quick, related'⟩ := obeys.ready related
  refine ⟨_, ⟨k + 1, fun passes large => ?_⟩, related'⟩
  refine (waitready_true_iff ..).mpr ⟨k, large, ⟨busy, fun n gives => ?_, ready⟩, rfl⟩
  rcases patient with rfl | ⟨rfl, other⟩
  · cases gives
  · obtain rfl : 101 = n := Option.some.inj gives
    have soon := quick other
    omega

/-- A chip without a frame that waits is never ready, however often it is asked. -/
theorem Obeys.never_ready (related : R s p []) (k : Nat) :
    (answer d s k).1 ≠ spiReady ∧ R (answer d s k).2 p [] := by
  -- Asking it and leaving it alone changes nothing.
  have same : R (polled d k s) p [] := by
    induction k with
    | zero => exact related
    | succ k ih =>
      rw [polled, Function.iterate_succ_apply']
      exact obeys.kept 10 (obeys.idle ih).2
  exact obeys.idle same

/-- `pn532_waitready` gives up when no frame waits. -/
theorem Obeys.waitready_idle (related : R s p []) :
    ∃ s', Program.Settles (bus d) (fun passes => pn532Waitready passes 1000) (.closed s)
        (false, .closed s') ∧ R s' p [] := by
  refine ⟨_, ⟨101, fun passes large => ?_⟩, (obeys.never_ready related 100).2⟩
  refine (waitready_iff ..).mpr ⟨100, large, fun j _ => (obeys.never_ready related j).1,
    fun n gives => ?_, .inr ⟨(obeys.never_ready related 100).1, rfl, rfl⟩, rfl⟩
  obtain rfl : 101 = n := Option.some.inj gives
  omega

/-- `pn532_readack` accepts the frame by which the chip confirms a command. -/
theorem Obeys.readack {rest : List Bytes} (related : R s p (Frame.ack :: rest)) :
    ∃ s', pn532Readack.run (bus d) (.closed s) = some (true, .closed s') ∧ R s' p rest := by
  obtain ⟨bytes, left, related', whole⟩ := obeys.handed 6 related
  have first : (fetched d 6 (d.select s)).1.head? = some 0 := by
    rw [List.head?_eq_getElem?, bytes 0 (by decide) (by decide)]
    rfl
  refine ⟨_, ?_, whole (by decide) ▸ related'⟩
  rw [run_pn532Readack, decide_eq_true first]

/-- A command is confirmed, and its response waits. -/
theorem Obeys.sendCommandCheckAck {waiting : List Bytes} (related : R s p waiting) {cmd : Ram UInt8}
    {cmdlen : UInt8} {command : Bytes} (holds : cmd.window 0 cmdlen.toNat = command)
    (short : cmdlen ≠ 255) {timeout : UInt16} (patient : WaitsFor timeout (execute command p).1) :
    ∃ s' cmd', Program.Settles (bus d)
        (fun passes => pn532SendCommandCheckAck passes cmd cmdlen timeout) (.closed s)
        ((true, cmd'), .closed s') ∧
      R s' (execute command p).2 [responseFrame (execute command p).1] := by
  have size := UInt8.toNat_lt cmdlen
  have below : cmdlen.toNat ≠ 255 := fun same => short (UInt8.toNat_inj.mp same)
  have length : command.length = cmdlen.toNat := by rw [← holds, Ram.window_length]
  have sent := obeys.command command related (by omega)
  have run := run_pn532Writecommand d (.closed s) cmd cmdlen
  rw [commandMessage_eq short, holds, Line.opened_closed] at run
  -- The command is confirmed first, and answered then.
  obtain ⟨s₁, ready, related₁⟩ := obeys.waitready sent timeout
    (patient.imp_right fun limited => ⟨limited.1, by decide⟩)
  obtain ⟨s₂, acked, related₂⟩ := obeys.readack related₁
  obtain ⟨s₃, ready', related₃⟩ := obeys.waitready related₂ timeout
    (patient.imp_right fun limited => ⟨limited.1, responseFrame_code limited.2⟩)
  refine ⟨s₃, (cmd.loads 0 (sentLength cmdlen)).2, ?_, related₃⟩
  refine (Program.Settles.of_run run).bind ?_
  refine ready.bind ?_
  refine (Program.Settles.of_run acked).bind ?_
  refine ready'.bind ?_
  exact .of_run rfl

/-- A command in the buffer is confirmed, and its response waits. -/
theorem Obeys.send {waiting : List Bytes} (related : R s p waiting) (nfc : Nfc) {cmdlen : UInt8}
    {command : Bytes} (holds : nfc.packetbuffer.window 0 cmdlen.toNat = command)
    (short : cmdlen ≠ 255) {timeout : UInt16} (patient : WaitsFor timeout (execute command p).1) :
    ∃ s' nfc', Program.Settles (bus d)
        (fun passes => nfc.sendCommandCheckAck passes cmdlen timeout) (.closed s)
        ((true, nfc'), .closed s') ∧
      R s' (execute command p).2 [responseFrame (execute command p).1] := by
  obtain ⟨s', cmd', settles, related'⟩ := obeys.sendCommandCheckAck related holds short patient
  exact ⟨s', _, settles.bind (.of_run rfl), related'⟩

/-- A command is filled in, and its response waits. -/
theorem Obeys.fillAndSend {waiting : List Bytes} (related : R s p waiting) (nfc : Nfc)
    (command : Bytes) {cmdlen : UInt8} (length : cmdlen.toNat = command.length)
    (short : cmdlen ≠ 255) {timeout : UInt16} (patient : WaitsFor timeout (execute command p).1) :
    ∃ s' nfc', Program.Settles (bus d)
        (fun passes => (nfc.fill command).sendCommandCheckAck passes cmdlen timeout) (.closed s)
        ((true, nfc'), .closed s') ∧
      R s' (execute command p).2 [responseFrame (execute command p).1] := by
  refine obeys.send related _ ?_ short patient
  rw [length]
  exact Ram.window_stores 0 command

/-- As much of a response as was asked for is in the front of the buffer. -/
theorem Obeys.readdata {frame : Bytes} {rest : List Bytes} (related : R s p (frame :: rest))
    (nfc : Nfc) (n : UInt8) :
    ∃ s' nfc' left, Program.Settles (bus d) (fun _ => nfc.readdata n) (.closed s)
        (nfc', .closed s') ∧ R s' p left ∧
      ∀ i, i < n.toNat → i < frame.length → frame[i]? = some (nfc'.packetbuffer.cell i) := by
  obtain ⟨bytes, left, related', -⟩ := obeys.handed n.toNat related
  refine ⟨_, _, left, .bind (.of_run (run_pn532Readdata d (.closed s) nfc.packetbuffer n))
    (.of_run rfl), related', fun i asked inside => ?_⟩
  have within : i < (fetched d n.toNat (d.select s)).1.length := by rwa [fetched_length]
  have filled := @Ram.stores_inside _ nfc.packetbuffer 0 _ _ within
  rw [Nat.zero_add] at filled
  rw [← bytes i asked inside, List.getElem?_eq_getElem within]
  exact congrArg some filled.symm

/-- The bytes of a response are in the buffer from the sixth on. -/
theorem Obeys.readResponse {response : Bytes} {rest : List Bytes}
    (related : R s p (responseFrame response :: rest)) (nfc : Nfc) (n : UInt8) :
    ∃ s' nfc' left, Program.Settles (bus d) (fun _ => nfc.readdata n) (.closed s)
        (nfc', .closed s') ∧ R s' p left ∧
      ∀ j, 6 + j < n.toNat → j < response.length →
        response[j]? = some (nfc'.packetbuffer.cell (6 + j)) := by
  obtain ⟨s', nfc', left, settles, related', bytes⟩ := obeys.readdata related nfc n
  refine ⟨s', nfc', left, settles, related', fun j asked inside => ?_⟩
  rw [← bytes (6 + j) asked (by simp [responseFrame]; omega), responseFrame_getElem inside]

/-- A block or some pages that the chip has read are handed to the caller. -/
theorem Obeys.mifareRead {waiting : List Bytes} (related : R s p waiting) (nfc : Nfc)
    {count : Nat} (fits : 8 + count ≤ 26) (page : UInt8) (data : Vector UInt8 count)
    {content : Vector UInt8 count} {more : Bytes}
    (answers : (execute [0x40, 1, 0x30, page] p).1 = 0x41 :: 0 :: content.toList ++ more) :
    ∃ s' nfc' left, Program.Settles (bus d) (fun passes => Rfid.mifareRead passes page data nfc)
        (.closed s) ((1, content, nfc'), .closed s') ∧
      R s' (execute [0x40, 1, 0x30, page] p).2 left := by
  obtain ⟨s₁, nfc₁, sent, related₁⟩ := obeys.fillAndSend related nfc [0x40, 1, 0x30, page]
    (show (4 : UInt8).toNat = 4 from rfl) (by decide) (waitsFor_exchange (by rw [answers]; rfl))
  obtain ⟨s₂, nfc₂, left, taken, related₂, bytes⟩ := obeys.readResponse related₁ nfc₁ 26
  rw [answers] at bytes
  have status : nfc₂.packetbuffer.cell 7 = 0 := by
    have second := bytes 1 (by decide) (by simp)
    simpa using second.symm
  have kept : nfc₂.packetbuffer.block 8 count = content := by
    have row := window_of_response [0x41, 0] content.toList bytes
      (by simp; omega)
    rw [Vector.length_toList, ← Ram.block_toList] at row
    exact Vector.toList_inj.mp row
  refine ⟨s₂, ((nfc₂.byte 7).2.row 8 count).2, left, sent.bind (taken.bind (.of_run ?_)), related₂⟩
  simp [Nfc.byte, Nfc.row, status, kept]

/-- A block or some pages that the chip could not read leave the caller's as they were. -/
theorem Obeys.mifareRead_refused {waiting : List Bytes} (related : R s p waiting) (nfc : Nfc)
    {count : Nat} (page : UInt8) (data : Vector UInt8 count) {status : UInt8} {more : Bytes}
    (answers : (execute [0x40, 1, 0x30, page] p).1 = 0x41 :: status :: more)
    (refused : status ≠ 0) :
    ∃ s' nfc' left, Program.Settles (bus d) (fun passes => Rfid.mifareRead passes page data nfc)
        (.closed s) ((0, data, nfc'), .closed s') ∧
      R s' (execute [0x40, 1, 0x30, page] p).2 left := by
  obtain ⟨s₁, nfc₁, sent, related₁⟩ := obeys.fillAndSend related nfc [0x40, 1, 0x30, page]
    (show (4 : UInt8).toNat = 4 from rfl) (by decide) (waitsFor_exchange (by rw [answers]; rfl))
  obtain ⟨s₂, nfc₂, left, taken, related₂, bytes⟩ := obeys.readResponse related₁ nfc₁ 26
  rw [answers] at bytes
  have told : nfc₂.packetbuffer.cell 7 = status := by
    have second := bytes 1 (by decide) (by simp)
    simpa using second.symm
  refine ⟨s₂, (nfc₂.byte 7).2, left, sent.bind (taken.bind (.of_run ?_)), related₂⟩
  simp [Nfc.byte, told, refused]

/-- A block or a page is reported as written whatever the chip responds. -/
theorem Obeys.mifareWrite {waiting : List Bytes} (related : R s p waiting) (nfc : Nfc)
    {count : Nat} (fits : 4 + count ≤ 64) (command page : UInt8) (data : Vector UInt8 count)
    (answers : (execute ([0x40, 1, command, page] ++ data.toList) p).1.head? = some 0x41) :
    ∃ s' nfc' left, Program.Settles (bus d)
        (fun passes => Rfid.mifareWrite passes command page data nfc) (.closed s)
        ((1, nfc'), .closed s') ∧
      R s' (execute ([0x40, 1, command, page] ++ data.toList) p).2 left := by
  have length : (UInt8.ofNat (4 + count)).toNat = 4 + count :=
    UInt8.toNat_ofNat_of_lt' (by rw [UInt8.size]; omega)
  have short : UInt8.ofNat (4 + count) ≠ 255 := ne_largest (by rw [length]; omega)
  obtain ⟨s₁, nfc₁, sent, related₁⟩ := obeys.fillAndSend related nfc
    ([0x40, 1, command, page] ++ data.toList) (length.trans (by simp; omega)) short
    (waitsFor_exchange answers)
  obtain ⟨s₂, nfc₂, left, taken, related₂, -⟩ :=
    obeys.readResponse (obeys.kept 10 related₁) nfc₁ 26
  refine ⟨s₂, nfc₂, left, sent.bind ?_, related₂⟩
  exact (Program.Settles.of_run (run_delay d (.closed s₁) 10)).bind (taken.bind (.of_run rfl))

/-- A card is authenticated with the bytes of its identifier that the caller has given. -/
theorem Obeys.authenticateBlock {waiting : List Bytes} (related : R s p waiting) (nfc : Nfc)
    (uid : Ram UInt8) (uidLen : UInt8) (inside : uidLen.toNat ≤ 7) (blockNumber : UInt32)
    (keyNumber : UInt8) (keyData : Vector UInt8 6) {command : Bytes}
    (asks : command = [0x40, 1, if keyNumber ≠ 0 then 0x61 else 0x60, blockNumber.toUInt8] ++
      keyData.toList ++ uid.window 0 uidLen.toNat)
    {status : UInt8} {more : Bytes} (answers : (execute command p).1 = 0x41 :: status :: more) :
    ∃ s' nfc' left, Program.Settles (bus d)
        (fun passes => pn532MifareclassicAuthenticateBlock passes uid uidLen blockNumber keyNumber
          keyData nfc) (.closed s)
        ((if status ≠ 0 then 0 else 1, (uid.loads 0 uidLen.toNat).2, nfc'), .closed s') ∧
      R s' (execute command p).2 left := by
  have size : (10 + uidLen).toNat = 10 + uidLen.toNat := by
    have sum : (10 + uidLen).toNat = (10 + uidLen.toNat) % 256 := UInt8.toNat_add 10 uidLen
    omega
  have small : 10 + uidLen ≠ 255 := ne_largest (by rw [size]; omega)
  -- The identifier is kept, and taken from there.
  have row : ((Ram.stores 0 (uid.loads 0 uidLen.toNat).1.toList nfc.obj.uid).loads 0
      uidLen.toNat).1.toList = uid.window 0 uidLen.toNat := by
    rw [Ram.loads_value, Ram.loads_value, Ram.block_stores, Ram.block_toList]
  have holds : (Ram.stores 10 ((Ram.stores 0 (uid.loads 0 uidLen.toNat).1.toList
      nfc.obj.uid).loads 0 uidLen.toNat).1.toList (nfc.fill ([0x40, 1,
      if keyNumber ≠ 0 then 0x61 else 0x60, blockNumber.toUInt8] ++
      keyData.toList)).packetbuffer).window 0 (10 + uidLen).toNat = command := by
    have whole := window_fill_append nfc ([0x40, 1, if keyNumber ≠ 0 then 0x61 else 0x60,
      blockNumber.toUInt8] ++ keyData.toList) (uid.window 0 uidLen.toNat)
    rw [Ram.window_length] at whole
    rw [row, size, asks]
    simpa using whole
  obtain ⟨s₁, nfc₁, sent, related₁⟩ := obeys.send related
    ⟨{ nfc.obj with
      key := keyData
      uid := ((Ram.stores 0 (uid.loads 0 uidLen.toNat).1.toList nfc.obj.uid).loads 0
        uidLen.toNat).2
      uidLen := uidLen }, _⟩ holds small (waitsFor_exchange (by rw [answers]; rfl))
  obtain ⟨s₂, nfc₂, left, taken, related₂, bytes⟩ := obeys.readResponse related₁ nfc₁ 12
  rw [answers] at bytes
  have told : nfc₂.packetbuffer.cell 7 = status := by
    have second := bytes 1 (by decide) (by simp)
    simpa using second.symm
  refine ⟨s₂, (nfc₂.byte 7).2, left, ?_, related₂⟩
  refine sent.bind (taken.bind (.of_run ?_))
  simp [Nfc.byte, told]

/-- The identifier of a card that the chip has found is handed to the caller. -/
theorem Obeys.readPassiveTargetID {waiting : List Bytes} (related : R s p waiting) (nfc : Nfc)
    (cardbaudrate : UInt8) (uid : Ram UInt8) (uidLength len : UInt8) {tg s₁ s₂ sel : UInt8}
    {id more : Bytes} (length : len.toNat = id.length) (short : id.length ≤ 7)
    (answers : (execute [0x4A, 1, cardbaudrate] p).1 =
      [responseInlistpassivetarget, 1, tg, s₁, s₂, sel, len] ++ id ++ more) :
    ∃ s' nfc' left, Program.Settles (bus d)
        (fun passes => pn532ReadPassiveTargetID passes cardbaudrate 0 uid uidLength nfc)
        (.closed s) ((true, uid.stores 0 id, len, nfc'), .closed s') ∧
      R s' (execute [0x4A, 1, cardbaudrate] p).2 left := by
  obtain ⟨t₁, nfc₁, sent, related₁⟩ := obeys.fillAndSend related nfc [0x4A, 1, cardbaudrate]
    (show (3 : UInt8).toNat = 3 from rfl) (by decide) (.inl rfl)
  obtain ⟨t₂, nfc₂, left, taken, related₂, bytes⟩ := obeys.readResponse related₁ nfc₁ 20
  rw [answers] at bytes
  have found : nfc₂.packetbuffer.cell 7 = 1 := by
    have second := bytes 1 (by decide) (by simp)
    simpa using second.symm
  have told : nfc₂.packetbuffer.cell 12 = len := by
    have seventh := bytes 6 (by decide) (by simp)
    simpa using seventh.symm
  have kept : nfc₂.packetbuffer.window 13 len.toNat = id := by
    rw [length]
    exact window_of_response _ _ bytes (by simp; omega)
  refine ⟨t₂, (((nfc₂.byte 7).2.byte 12).2.row 13 len.toNat).2, left,
    sent.bind (taken.bind (.of_run ?_)), related₂⟩
  simp [Nfc.byte, Nfc.row, found, told, Ram.block_toList, kept]
  rw [told]

/-- A command that the direction byte of a response is to tell of is never taken for carried out. -/
theorem Obeys.confirmedBy {waiting : List Bytes} (related : R s p waiting) (nfc : Nfc)
    (code : UInt8) (other : code ≠ pn532ToHost) (command : Bytes) (fits : command.length ≤ 64)
    (answers : (execute command p).1.head? ≠ some responseInlistpassivetarget) :
    ∃ s' nfc' left, Program.Settles (bus d)
        (fun passes => Rfid.confirmedBy 5 code passes command nfc) (.closed s)
        ((false, nfc'), .closed s') ∧ R s' (execute command p).2 left ∧
        nfc'.packetbuffer.cell 5 = pn532ToHost := by
  have length : (UInt8.ofNat command.length).toNat = command.length :=
    UInt8.toNat_ofNat_of_lt' (by rw [UInt8.size]; omega)
  have short : UInt8.ofNat command.length ≠ 255 := ne_largest (by rw [length]; omega)
  obtain ⟨s₁, nfc₁, sent, related₁⟩ := obeys.fillAndSend related nfc command length short
    (.inr ⟨rfl, answers⟩)
  obtain ⟨s₂, nfc₂, left, taken, related₂, bytes⟩ := obeys.readdata related₁ nfc₁ 8
  -- The fifth byte is where the direction of the frame stands.
  have direction : nfc₂.packetbuffer.cell 5 = pn532ToHost := by
    have fifth := bytes 5 (by decide) (by simp [responseFrame])
    exact (Option.some.inj fifth).symm
  refine ⟨s₂, (nfc₂.byte 5).2, left, sent.bind (taken.bind (.of_run ?_)), related₂, direction⟩
  simp [Nfc.byte, direction, other.symm]

/-- The version starts with the code of the response, and ends with the revision. -/
theorem Obeys.getFirmwareVersion {waiting : List Bytes} (related : R s p waiting) (nfc : Nfc)
    {ic ver rev : UInt8} {more : Bytes}
    (answers : (execute [0x02] p).1 = [0x03, ic, ver, rev] ++ more) :
    ∃ s' nfc' left version, Program.Settles (bus d)
        (fun passes => pn532GetFirmwareVersion passes nfc) (.closed s)
        ((version, nfc'), .closed s') ∧ R s' (execute [0x02] p).2 left ∧
      version.toNat = ((3 * 256 + ic.toNat) * 256 + ver.toNat) * 256 + rev.toNat := by
  obtain ⟨s₁, nfc₁, sent, related₁⟩ := obeys.fillAndSend related nfc [0x02]
    (show (1 : UInt8).toNat = 1 from rfl) (by decide)
    (.inr ⟨rfl, by rw [answers]; exact Option.some_injective _ |>.ne (by decide)⟩)
  obtain ⟨s₂, nfc₂, left, taken, related₂, bytes⟩ := obeys.readdata related₁ nfc₁ 12
  -- The texts that are compared start with a zero.
  have first : nfc₂.packetbuffer.cell 0 = 0 := by
    have zeroth := bytes 0 (by decide) (by simp [responseFrame])
    exact (Option.some.inj zeroth).symm
  have accepted : strncmp 6 (nfc₂.packetbuffer.window 0 6) pn532responseFirmwarevers = 0 := by
    rw [Ram.window_succ, first]
    rfl
  have behind : ∀ j, 6 + j < 12 → j < ([] ++ [3, ic, ver, rev] ++ more).length →
      ([] ++ [3, ic, ver, rev] ++ more)[j]? = some (nfc₂.packetbuffer.cell (6 + j)) := by
    intro j asked inside
    rw [List.nil_append, ← answers] at inside ⊢
    rw [← bytes (6 + j) asked (by simp [responseFrame]; omega), responseFrame_getElem inside]
  have row : nfc₂.packetbuffer.window 6 4 = [3, ic, ver, rev] :=
    window_of_response _ _ behind (by simp)
  refine ⟨s₂, ((nfc₂.row 0 6).2.row 6 4).2, left,
    [3, ic, ver, rev].foldl (fun value byte => value <<< 8 ||| byte.toUInt32) (0 : UInt32),
    sent.bind (taken.bind (.of_run ?_)), related₂, ?_⟩
  · simp [Nfc.row, accepted, Ram.block_toList, row]
  · simp only [List.foldl_cons, List.foldl_nil]
    have icSize := UInt8.toNat_lt ic
    have verSize := UInt8.toNat_lt ver
    -- One byte after the other is put behind those before it.
    have one : ((0 : UInt32) <<< 8 ||| (3 : UInt8).toUInt32).toNat = 3 := rfl
    have two := toNat_shift_or (by rw [one]; omega) ic
    rw [one] at two
    have three := toNat_shift_or (by rw [two]; omega) ver
    rw [two] at three
    have four := toNat_shift_or (by rw [three]; omega) rev
    rw [four, three]

end

end Rfid
