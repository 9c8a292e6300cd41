import RfidEncryption.Nfc.Commands

/-! The arrays of the driver and of its caller, and the accesses that leave them. -/

namespace Rfid

open Device Memory

/-- The buffer holds 64 bytes, and the copy of the identifier seven. -/
def Nfc.InBounds (nfc : Nfc) : Prop := nfc.packetbuffer.Within 64 ∧ nfc.obj.uid.Within 7

section
variable (cmd buff : Ram UInt8)

/-- A command is only read. -/
theorem ensures_writeBytes (checksum : UInt8) (i left : Nat) :
    (writeBytes cmd checksum i left).Ensures fun ended => ended.2 = (cmd.loads i left).2 := by
  induction left generalizing cmd checksum i with
  | zero => rfl
  | succ left ih =>
    intro _
    rw [Ram.loads_succ]
    exact ih (cmd.load i).2 (checksum + cmd.cell i) (i + 1)

/-- As much of a command is read as is sent. -/
theorem ensures_pn532Writecommand (cmdlen : UInt8) :
    (pn532Writecommand cmd cmdlen).Ensures fun cmd' =>
      cmd' = (cmd.loads 0 (sentLength cmdlen)).2 := by
  -- Nine calls come before those of the loop.
  intro _ _ _ _ _ _ _ _ _
  refine (ensures_writeBytes cmd _ 0 _).bind fun ended read => ?_
  intro _ _ _
  exact read

/-- A buffer is filled from a cell on. -/
theorem ensures_readBytes (i left : Nat) :
    (readBytes buff i left).Ensures fun buff' =>
      ∃ bytes : Bytes, bytes.length = left ∧ buff' = buff.stores i bytes := by
  induction left generalizing buff i with
  | zero => exact ⟨[], rfl, rfl⟩
  | succ left ih =>
    intro _ x
    refine (ih (buff.store i x) (i + 1)).mono fun buff' filled => ?_
    obtain ⟨bytes, length, rfl⟩ := filled
    exact ⟨x :: bytes, congrArg (· + 1) length, rfl⟩

/-- The front of a buffer is filled. -/
theorem ensures_pn532Readdata (n : UInt8) :
    (pn532Readdata buff n).Ensures fun buff' =>
      ∃ bytes : Bytes, bytes.length = n.toNat ∧ buff' = buff.stores 0 bytes := by
  intro _ _ _
  refine (ensures_readBytes buff 0 n.toNat).bind fun buff' filled => ?_
  intro _
  exact filled

/-- A command that is sent and confirmed is only read. -/
theorem ensures_pn532SendCommandCheckAck (passes : Nat) (cmdlen : UInt8) (timeout : UInt16) :
    (pn532SendCommandCheckAck passes cmd cmdlen timeout).Ensures fun ended =>
      ended.2 = (cmd.loads 0 (sentLength cmdlen)).2 := by
  refine (ensures_pn532Writecommand cmd cmdlen).bind fun cmd' read => ?_
  -- Whatever the chip says next, the command is left alone.
  refine (Program.ensures_true _).bind fun ready _ => ?_
  cases ready with
  | false => exact read
  | true =>
    refine (Program.ensures_true _).bind fun acked _ => ?_
    cases acked with
    | false => exact read
    | true =>
      refine (Program.ensures_true _).bind fun ready _ => ?_
      cases ready with
      | false => exact read
      | true => exact read

end

/-- One driver comes after another one, whose accesses to the buffer it adds some to. -/
structure Nfc.Follows (nfc' nfc : Nfc) (inside : Prop) : Prop where
  obj : nfc'.obj = nfc.obj
  buffer : nfc'.packetbuffer.Within 64 ↔ nfc.packetbuffer.Within 64 ∧ inside

namespace Nfc.Follows

variable {nfc nfc' nfc'' : Nfc} {inside inside' : Prop}

/-- Accesses come one after the other. -/
theorem trans (second : nfc''.Follows nfc' inside') (first : nfc'.Follows nfc inside) :
    nfc''.Follows nfc (inside ∧ inside') :=
  ⟨second.obj.trans first.obj, by rw [second.buffer, first.buffer, and_assoc]⟩

/-- Accesses that are inside the buffer for the same reason. -/
theorem congr (follows : nfc'.Follows nfc inside) (same : inside ↔ inside') :
    nfc'.Follows nfc inside' :=
  ⟨follows.obj, by rw [follows.buffer, same]⟩

end Nfc.Follows

/-- As much of a command that fits the buffer is sent as there is of it. -/
theorem sentLength_ofNat_le {n : Nat} (fits : n ≤ 64) : sentLength (UInt8.ofNat n) ≤ 64 := by
  have next : (UInt8.ofNat n + 1).toNat = (n % 256 + 1) % 256 := by
    rw [UInt8.toNat_add, UInt8.toNat_ofNat']
    rfl
  rw [sentLength, next]
  omega

section
variable (nfc : Nfc) (passes : Nat)

/-- A command that fits the buffer is filled in. -/
theorem Nfc.follows_fill {command : Bytes} (fits : command.length ≤ 64) :
    (nfc.fill command).Follows nfc True := by
  refine ⟨rfl, ?_⟩
  simp only [Nfc.fill, Ram.within_stores]
  exact and_congr_right fun _ => iff_of_true (by omega) trivial

/-- A byte of the buffer is read. -/
theorem Nfc.follows_byte (i : Nat) : (nfc.byte i).2.Follows nfc (i < 64) :=
  ⟨rfl, Ram.within_load ..⟩

/-- A row of the buffer is read. -/
theorem Nfc.follows_row (start count : Nat) :
    (nfc.row start count).2.Follows nfc (count = 0 ∨ start + count ≤ 64) :=
  ⟨rfl, Ram.within_loads ..⟩

/-- As much of the buffer is read as is sent. -/
theorem Nfc.ensures_send (cmdlen : UInt8) (timeout : UInt16) :
    (nfc.sendCommandCheckAck passes cmdlen timeout).Ensures fun ended =>
      ended.2.Follows nfc (sentLength cmdlen ≤ 64) := by
  refine (ensures_pn532SendCommandCheckAck nfc.packetbuffer passes cmdlen timeout).bind ?_
  rintro ⟨acked, packetbuffer⟩ rfl
  refine ⟨rfl, ?_⟩
  rw [Ram.within_loads]
  exact and_congr_right fun _ => by omega

/-- As much of the buffer is filled as was asked for. -/
theorem Nfc.ensures_readdata (n : UInt8) :
    (nfc.readdata n).Ensures fun nfc' => nfc'.Follows nfc (n.toNat ≤ 64) := by
  refine (ensures_pn532Readdata nfc.packetbuffer n).bind ?_
  rintro packetbuffer ⟨bytes, length, rfl⟩
  refine ⟨rfl, ?_⟩
  rw [Ram.within_stores, length]
  exact and_congr_right fun _ => by omega

/-- A command that fits the buffer is filled in and sent. -/
theorem Nfc.ensures_command {command : Bytes} (cmdlen : UInt8) (timeout : UInt16)
    (fits : command.length ≤ 64) (whole : sentLength cmdlen ≤ 64) :
    ((nfc.fill command).sendCommandCheckAck passes cmdlen timeout).Ensures fun ended =>
      ended.2.Follows nfc True := by
  refine ((nfc.fill command).ensures_send passes cmdlen timeout).mono fun ended sent => ?_
  exact (sent.trans (nfc.follows_fill fits)).congr (iff_of_true ⟨trivial, whole⟩ trivial)

/-- The version is read inside the buffer. -/
theorem ensures_pn532GetFirmwareVersion :
    (pn532GetFirmwareVersion passes nfc).Ensures fun ended => ended.2.Follows nfc True := by
  refine (nfc.ensures_command passes 1 1000 (by decide) (by decide)).bind ?_
  rintro ⟨acked, nfc₁⟩ sent
  cases acked with
  | false => exact sent
  | true =>
    refine (nfc₁.ensures_readdata 12).bind fun nfc₂ filled => ?_
    have front := (nfc₂.follows_row 0 6).trans (filled.trans sent)
    dsimp only
    split_ifs
    · exact front.congr (by decide)
    · exact (((nfc₂.row 0 6).2.follows_row 6 4).trans front).congr (by decide)

/-- The dummy command is sent from inside the buffer. -/
theorem ensures_pn532Begin : (pn532Begin passes nfc).Ensures fun nfc' => nfc'.Follows nfc True := by
  intro _ _
  refine (nfc.ensures_command passes 1 1000 (by decide) (by decide)).bind ?_
  rintro ⟨acked, nfc₁⟩ sent _
  exact sent

/-- A response that one byte tells of is read inside the buffer. -/
theorem ensures_confirmedBy {offset : Nat} {command : Bytes} (code : UInt8) (inside : offset < 64)
    (fits : command.length ≤ 64) :
    (confirmedBy offset code passes command nfc).Ensures fun ended => ended.2.Follows nfc True := by
  refine (nfc.ensures_command passes _ 1000 fits (sentLength_ofNat_le fits)).bind ?_
  rintro ⟨acked, nfc₁⟩ sent
  cases acked with
  | false => exact sent
  | true =>
    refine (nfc₁.ensures_readdata 8).bind fun nfc₂ filled => ?_
    refine ((nfc₂.follows_byte offset).trans (filled.trans sent)).congr ?_
    exact iff_of_true ⟨⟨trivial, by decide⟩, inside⟩ trivial

/-- The pages that are read fit the buffer. -/
theorem ensures_mifareRead {count : Nat} (fits : 8 + count ≤ 64) (page : UInt8)
    (data : Vector UInt8 count) :
    (mifareRead passes page data nfc).Ensures fun ended => ended.2.2.Follows nfc True := by
  refine (nfc.ensures_command passes 4 1000 (by simp) (by decide)).bind ?_
  rintro ⟨acked, nfc₁⟩ sent
  cases acked with
  | false => exact sent
  | true =>
    refine (nfc₁.ensures_readdata 26).bind fun nfc₂ filled => ?_
    have status := (nfc₂.follows_byte 7).trans (filled.trans sent)
    dsimp only
    split_ifs
    · exact status.congr (by decide)
    · refine (((nfc₂.byte 7).2.follows_row 8 count).trans status).congr ?_
      exact iff_of_true ⟨⟨⟨trivial, by decide⟩, by omega⟩, .inr fits⟩ trivial

/-- The bytes that are written fit the buffer. -/
theorem ensures_mifareWrite {count : Nat} (fits : 4 + count ≤ 64) (command page : UInt8)
    (data : Vector UInt8 count) :
    (mifareWrite passes command page data nfc).Ensures fun ended => ended.2.Follows nfc True := by
  refine (nfc.ensures_command passes _ 1000 ?_ (sentLength_ofNat_le fits)).bind ?_
  · simp
    omega
  · rintro ⟨acked, nfc₁⟩ sent
    cases acked with
    | false => exact sent
    | true =>
      intro _
      refine (nfc₁.ensures_readdata 26).bind fun nfc₂ filled => ?_
      exact (filled.trans sent).congr (iff_of_true ⟨trivial, by decide⟩ trivial)

/-- Only an identifier of more than seven bytes is written beyond the end of its array. -/
theorem ensures_pn532ReadPassiveTargetID (cardbaudrate : UInt8) (timeout : UInt16) (uid : Ram UInt8)
    (uidLength : UInt8) :
    (pn532ReadPassiveTargetID passes cardbaudrate timeout uid uidLength nfc).Ensures
      fun (success, uid', uidLength', nfc') =>
        (success = false → uid' = uid ∧ uidLength' = uidLength ∧ nfc'.Follows nfc True) ∧
        (success = true → nfc'.Follows nfc (uidLength'.toNat ≤ 51) ∧
          (uid'.Within 7 ↔ uid.Within 7 ∧ uidLength'.toNat ≤ 7)) := by
  refine (nfc.ensures_command passes 3 timeout (by simp) (by decide)).bind ?_
  rintro ⟨acked, nfc₁⟩ sent
  cases acked with
  | false => exact ⟨fun _ => ⟨rfl, rfl, sent⟩, fun found => absurd found (by simp)⟩
  | true =>
    refine (nfc₁.ensures_readdata 20).bind fun nfc₂ filled => ?_
    have found := (nfc₂.follows_byte 7).trans (filled.trans sent)
    dsimp only
    split_ifs
    · exact ⟨fun _ => ⟨rfl, rfl, found.congr (by decide)⟩, fun found => absurd found (by simp)⟩
    · refine ⟨fun none => absurd none (by simp), fun _ => ⟨?_, ?_⟩⟩
      · -- The bytes of the identifier start at the thirteenth.
        have length := ((nfc₂.byte 7).2.follows_byte 12).trans found
        refine ((((nfc₂.byte 7).2.byte 12).2.follows_row 13 _).trans length).congr ?_
        simp
        omega
      · rw [Ram.within_stores, Vector.length_toList]
        dsimp only
        exact and_congr_right fun _ => by omega

/-- The bytes of a command with an identifier of seven bytes at most fit the buffer. -/
theorem sentLength_authenticate {uidLen : UInt8} (short : uidLen.toNat ≤ 7) :
    sentLength (10 + uidLen) ≤ 64 := by
  have next : (10 + uidLen + 1).toNat = ((10 + uidLen.toNat) % 256 + 1) % 256 := by
    rw [UInt8.toNat_add, UInt8.toNat_add]
    rfl
  rw [sentLength, next]
  omega

/-- Keeping an identifier and sending it stays inside the arrays when it is a short one. -/
theorem inBounds_of_kept {nfc start nfc' : Nfc} {uid : Ram UInt8} {uidLen : UInt8} {inside : Prop}
    (kept : start.obj.uid.Within 7 ↔ nfc.obj.uid.Within 7 ∧ (uidLen.toNat = 0 ∨ uidLen.toNat ≤ 7))
    (buffer : start.packetbuffer.Within 64 ↔
      nfc.packetbuffer.Within 64 ∧ (uidLen.toNat = 0 ∨ 10 + uidLen.toNat ≤ 64))
    (sent : nfc'.Follows start inside) (short : uidLen.toNat ≤ 7 → inside) :
    nfc'.InBounds ∧ (uid.loads 0 uidLen.toNat).2.Within 7 ↔
      nfc.InBounds ∧ uid.Within 7 ∧ uidLen.toNat ≤ 7 := by
  rw [Nfc.InBounds, Nfc.InBounds, sent.buffer, sent.obj, kept, buffer, Ram.within_loads]
  constructor
  · rintro ⟨⟨⟨⟨before, -⟩, -⟩, copy, -⟩, array, length⟩
    exact ⟨⟨before, copy⟩, array, by omega⟩
  · rintro ⟨⟨before, copy⟩, array, length⟩
    exact ⟨⟨⟨⟨before, by omega⟩, short length⟩, copy, by omega⟩, array, by omega⟩

/-- Only an identifier of more than seven bytes is kept beyond the end of its array. -/
theorem ensures_pn532MifareclassicAuthenticateBlock (uid : Ram UInt8) (uidLen : UInt8)
    (blockNumber : UInt32) (keyNumber : UInt8) (keyData : Vector UInt8 6) :
    (pn532MifareclassicAuthenticateBlock passes uid uidLen blockNumber keyNumber keyData
      nfc).Ensures
      fun (_, uid', nfc') => uid' = (uid.loads 0 uidLen.toNat).2 ∧
        (nfc'.InBounds ∧ uid'.Within 7 ↔ nfc.InBounds ∧ uid.Within 7 ∧ uidLen.toNat ≤ 7) := by
  rw [pn532MifareclassicAuthenticateBlock]
  refine (Nfc.ensures_send _ passes (10 + uidLen) 1000).bind ?_
  rintro ⟨acked, nfc₁⟩ sent
  cases acked with
  | false =>
    refine ⟨rfl, inBounds_of_kept ?_ ?_ sent sentLength_authenticate⟩
    · simp
    · simp [Nfc.fill]
  | true =>
    refine (nfc₁.ensures_readdata 12).bind fun nfc₂ filled => ?_
    have status := (nfc₂.follows_byte 7).trans (filled.trans sent)
    refine ⟨rfl, inBounds_of_kept ?_ ?_ status fun short => ?_⟩
    · simp
    · simp [Nfc.fill]
    · exact ⟨⟨sentLength_authenticate short, by decide⟩, by decide⟩

/-- One pass stays inside the arrays exactly when the identifier has at most seven bytes. -/
theorem ensures_nfcTaskPass (uidLength : UInt8) :
    (nfcTaskPass passes uidLength nfc).Ensures fun (scan, nfc') =>
      (nfc'.InBounds ∧ scan.uid.Within 7 ↔ nfc.InBounds ∧ scan.uidLength.toNat ≤ 7) := by
  refine (ensures_pn532ReadPassiveTargetID nfc passes 0 0 _ uidLength).bind ?_
  rintro ⟨success, uid, length, nfc₁⟩ scanned
  refine (ensures_pn532MifareclassicAuthenticateBlock nfc₁ passes uid length 4 0 keyA).bind ?_
  rintro ⟨_, uid', nfc₂⟩ ⟨-, kept⟩
  refine (ensures_mifareRead nfc₂ passes (by decide) 4 (Vector.replicate 16 0)).bind ?_
  rintro ⟨keyRW, cardKey1, nfc₃⟩ read
  dsimp only at scanned kept read ⊢
  have same : nfc₃.InBounds ↔ nfc₂.InBounds := by
    rw [Nfc.InBounds, Nfc.InBounds, read.buffer, read.obj, and_true]
  rw [Program.ensures_pure]
  dsimp only
  rw [same, kept]
  -- Without a card the length is whatever it was, and with one it is the chip's.
  cases success with
  | false =>
    obtain ⟨rfl, rfl, follows⟩ := scanned.1 rfl
    rw [Nfc.InBounds, Nfc.InBounds, follows.buffer, follows.obj]
    simp
  | true =>
    obtain ⟨follows, array⟩ := scanned.2 rfl
    rw [Nfc.InBounds, Nfc.InBounds, follows.buffer, follows.obj, array]
    simp
    omega

/-- A write of the card takes four bytes of its identifier, and stays inside the arrays. -/
theorem ensures_cardWriteOnBlockCalls (uid : Uid) (data : CardKey) :
    (cardWriteOnBlockCalls passes uid data nfc).Ensures fun (_, _, nfc') =>
      (nfc'.InBounds ↔ nfc.InBounds) := by
  refine (ensures_pn532MifareclassicAuthenticateBlock nfc passes _ 4 4 0 keyA).bind ?_
  rintro ⟨authenticated, uid', nfc₁⟩ ⟨rfl, kept⟩
  refine (ensures_mifareWrite nfc₁ passes (by decide) 0xA0 4 (block4 data)).bind ?_
  rintro ⟨written, nfc₂⟩ sent
  dsimp only at kept sent ⊢
  rw [Program.ensures_pure]
  dsimp only
  simp only [Ram.within_loads, Ram.within_fresh, true_and] at kept
  rw [Nfc.InBounds, sent.buffer, sent.obj, and_true]
  exact (and_iff_left (by decide)).symm.trans (kept.trans (and_iff_left (by decide)))

/-- The card is written in bounds, if it is written at all. -/
theorem ensures_writeBack (tap : Option (Uid × CardKey)) (data : Option CardKey) :
    (writeBack passes tap data nfc).Ensures fun nfc' => (nfc'.InBounds ↔ nfc.InBounds) := by
  unfold writeBack
  split
  · refine (ensures_cardWriteOnBlockCalls nfc passes _ _).bind ?_
    rintro ⟨_, _, nfc'⟩ written
    exact written
  · exact Iff.rfl

/-- The passes of the loop stay inside the arrays exactly when every identifier is short enough. -/
theorem ensures_nfcTaskLoop (turns : List Turn) :
    (nfcTaskLoop passes turns nfc).Ensures fun (scans, nfc') =>
      (nfc'.InBounds ∧ (∀ scan ∈ scans, scan.uid.Within 7) ↔
        nfc.InBounds ∧ ∀ scan ∈ scans, scan.uidLength.toNat ≤ 7) := by
  induction turns generalizing nfc with
  | nil => simp [nfcTaskLoop]
  | cons turn rest ih =>
    refine (ensures_nfcTaskPass nfc passes turn.uidLength).bind ?_
    rintro ⟨scan, nfc₁⟩ first
    dsimp only at first ⊢
    refine (ensures_writeBack nfc₁ passes scan.tap turn.data).bind fun nfc₂ same => ?_
    refine (ih nfc₂).bind ?_
    rintro ⟨scans, nfc₃⟩ later
    dsimp only at later ⊢
    rw [Program.ensures_pure]
    dsimp only
    simp only [List.forall_mem_cons]
    rw [same] at later
    constructor
    · rintro ⟨inBounds, array, arrays⟩
      obtain ⟨before, lengths⟩ := later.mp ⟨inBounds, arrays⟩
      obtain ⟨start, length⟩ := first.mp ⟨before, array⟩
      exact ⟨start, length, lengths⟩
    · rintro ⟨start, length, lengths⟩
      obtain ⟨before, array⟩ := first.mpr ⟨start, length⟩
      obtain ⟨inBounds, arrays⟩ := later.mpr ⟨before, lengths⟩
      exact ⟨inBounds, array, arrays⟩

/--
Whatever the chip answers, `nfc_task` stays inside its arrays exactly when no identifier it works
with is longer than seven bytes.

That length is the chip's where a card was found, and otherwise whatever was on the stack. The runs
are those that end, after any number of turns: of a wait that no answer ends nothing is said.
-/
theorem nfcTask_inBounds_iff (turns : List Turn) (untouched : nfc.InBounds) :
    (nfcTask passes turns nfc).Ensures fun (scans, nfc') =>
      (nfc'.InBounds ∧ (∀ scan ∈ scans, scan.uid.Within 7) ↔
        ∀ scan ∈ scans, scan.uidLength.toNat ≤ 7) := by
  refine (ensures_pn532Begin nfc passes).bind fun nfc₁ begun => ?_
  refine (ensures_pn532GetFirmwareVersion nfc₁ passes).bind ?_
  rintro ⟨versiondata, nfc₂⟩ asked
  dsimp only
  split_ifs
  · trivial
  · refine (ensures_confirmedBy nfc₂ passes 0x15 (by decide) (by decide)).bind ?_
    rintro ⟨_, nfc₃⟩ configured
    refine (ensures_nfcTaskLoop nfc₃ passes turns).mono ?_
    rintro ⟨scans, nfc₄⟩ looped
    have started := configured.trans (asked.trans begun)
    have start : nfc₃.InBounds := by
      rw [Nfc.InBounds, started.buffer, started.obj]
      exact ⟨⟨untouched.1, ⟨trivial, trivial⟩, trivial⟩, untouched.2⟩
    dsimp only at looped ⊢
    rw [looped, and_iff_right start]

end

/-- A driver that has touched nothing yet starts inside its arrays. -/
theorem nfcTask_inBounds_start :
    (nfcTask 200 [⟨255, none⟩] ⟨readerNfc, Ram.fresh fun _ => 0⟩).Ensures fun (scans, nfc') =>
      (nfc'.InBounds ∧ (∀ scan ∈ scans, scan.uid.Within 7) ↔
        ∀ scan ∈ scans, scan.uidLength.toNat ≤ 7) :=
  nfcTask_inBounds_iff _ 200 _ ⟨Ram.within_fresh _ _, Ram.within_fresh _ _⟩

end Rfid
