import RfidEncryption.Nfc.Chip

/-! What the passes of `nfc_task` make of a card with four bytes of identifier. -/

namespace Rfid

open Device Memory

variable {σ π : Type}

/--
What the chip does for a card that keeps one block.

The card lets the reader at the block once it has been authenticated.
-/
structure ServesCard (execute : Bytes → π → Bytes × π) (id : Bytes)
    (holds opened : π → CardBlock → Prop) : Prop where
  /-- The response to `PN532_COMMAND_GETFIRMWAREVERSION` -/
  version : ∀ {p b}, holds p b → ∃ ic ver rev more,
    (execute [0x02] p).1 = [0x03, ic, ver, rev] ++ more ∧ holds (execute [0x02] p).2 b
  /-- The response to `PN532_COMMAND_SAMCONFIGURATION` -/
  configured : ∀ {p b}, holds p b →
    (execute samCommand p).1.head? ≠ some responseInlistpassivetarget ∧
      holds (execute samCommand p).2 b
  /-- The response to `PN532_COMMAND_INLISTPASSIVETARGET` -/
  listed : ∀ {p b}, holds p b → ∃ tg s₁ s₂ sel more,
    (execute [0x4A, 1, 0] p).1 =
        [responseInlistpassivetarget, 1, tg, s₁, s₂, sel, 4] ++ id ++ more ∧
      holds (execute [0x4A, 1, 0] p).2 b
  /-- The response to `MIFARE_CMD_AUTH_A` -/
  authenticated : ∀ {p b}, holds p b → ∃ more,
    (execute (authenticateCommand id) p).1 = 0x41 :: 0 :: more ∧
      opened (execute (authenticateCommand id) p).2 b
  /-- The response to `MIFARE_CMD_READ` -/
  read : ∀ {p b}, opened p b → ∃ more,
    (execute readCommand p).1 = 0x41 :: 0 :: b.toList ++ more ∧ holds (execute readCommand p).2 b
  /-- The response to `MIFARE_CMD_WRITE` -/
  written : ∀ {p b} (b' : CardBlock), opened p b →
    (execute (writeCommand b') p).1.head? = some 0x41 ∧ holds (execute (writeCommand b') p).2 b'

/-- The identifier as `nfc_task` keeps it, with zeros behind the bytes it has. -/
def uidOf (id : Bytes) : Uid := Vector.ofFn fun i => id.getD i 0

/-- What the reader is handed of a card: its identifier and its key, pass by pass. -/
def taps (id : Bytes) (b : CardBlock) : List Turn → List (Option (Uid × CardKey))
  | [] => []
  | turn :: rest =>
    some (uidOf id, cardKeyOf b) :: taps id (turn.data.elim b block4) rest

/-- An identifier that is put in an array of zeros is read with zeros behind it. -/
theorem block_uid (id : Bytes) :
    (Ram.stores 0 id (Ram.fresh fun _ => (0 : UInt8))).block 0 7 = uidOf id := by
  refine Vector.ext fun j inside => ?_
  rw [Ram.block_getElem inside, uidOf, Vector.getElem_ofFn]
  rcases Nat.lt_or_ge j id.length with within | behind
  · rw [Ram.stores_inside within]
    simp [within]
  · rw [Ram.stores_outside _ (.inr (by omega))]
    simp [behind]

/-- A card is authenticated with the identifier that was found. -/
theorem authenticateCommand_eq {id : Bytes} (four : id.length = 4) {uid : Ram UInt8}
    (holds : uid.window 0 id.length = id) :
    authenticateCommand id = [0x40, 1, if (0 : UInt8) ≠ 0 then 0x61 else 0x60,
      (4 : UInt32).toUInt8] ++ keyA.toList ++ uid.window 0 (4 : UInt8).toNat := by
  have length : (4 : UInt8).toNat = id.length := four.symm
  rw [length, holds]
  rfl

/-- The calls of `card_write_on_block` settle whatever the card says to them. -/
theorem Obeys.cardWrite {d : ByteDevice σ} {execute : Bytes → π → Bytes × π}
    {R : σ → π → List Bytes → Prop} {s : σ} {p : π} {waiting : List Bytes}
    (obeys : Obeys d execute R) (related : R s p waiting) (uid : Uid) (data : CardKey) (nfc : Nfc)
    {status : UInt8} {more : Bytes}
    (lets : (execute (authenticateCommand (uid.toList.take 4)) p).1 = 0x41 :: status :: more)
    (answers : (execute (writeCommand (block4 data))
      (execute (authenticateCommand (uid.toList.take 4)) p).2).1.head? = some 0x41) :
    ∃ s' nfc' left, Program.Settles (bus d)
        (fun passes => cardWriteOnBlockCalls passes uid data nfc) (.closed s)
        ((if status ≠ 0 then 0 else 1, 1, nfc'), .closed s') ∧
      R s' (execute (writeCommand (block4 data))
        (execute (authenticateCommand (uid.toList.take 4)) p).2).2 left := by
  have four : (uid.toList.take 4).length = 4 := by simp
  have front : (Ram.fresh fun i => uid.toList.getD i 0).window 0 (uid.toList.take 4).length =
      uid.toList.take 4 := by
    refine Ram.window_eq_iff.mpr fun j inside => ?_
    have within : j < 7 := by omega
    simp [within]
  obtain ⟨t₁, nfc₁, left₁, kept, related₁⟩ := obeys.authenticateBlock related nfc
    (Ram.fresh fun i => uid.toList.getD i 0) 4 (by decide) 4 0 keyA
    (authenticateCommand_eq four front) lets
  obtain ⟨t₂, nfc₂, left₂, written, related₂⟩ := obeys.mifareWrite related₁ nfc₁ (by decide) 0xA0 4
    (block4 data) answers
  exact ⟨t₂, nfc₂, left₂, kept.bind (written.bind (.of_run rfl)), related₂⟩

section
variable {d : ByteDevice σ} {execute : Bytes → π → Bytes × π} {R : σ → π → List Bytes → Prop}
  {id : Bytes} {holds opened : π → CardBlock → Prop} (obeys : Obeys d execute R)
  (serves : ServesCard execute id holds opened) (four : id.length = 4)
  {s : σ} {p : π} {waiting : List Bytes} {b : CardBlock}
include obeys serves four

/-- A pass finds the card, and takes its block. -/
theorem nfcTaskPass_settles (related : R s p waiting) (held : holds p b) (uidLength : UInt8)
    (nfc : Nfc) :
    ∃ s' scan nfc' p' left, Program.Settles (bus d)
        (fun passes => nfcTaskPass passes uidLength nfc) (.closed s) ((scan, nfc'), .closed s') ∧
      R s' p' left ∧ holds p' b ∧ scan.tap = some (uidOf id, cardKeyOf b) := by
  obtain ⟨tg, s₁, s₂, sel, more, lists, held₁⟩ := serves.listed held
  obtain ⟨t₁, nfc₁, left₁, scanned, related₁⟩ := obeys.readPassiveTargetID related nfc 0
    (Ram.fresh fun _ => 0) uidLength 4 four.symm (by omega) lists
  -- The identifier that was found is the one the card is authenticated with.
  obtain ⟨more₂, lets, opened₂⟩ := serves.authenticated held₁
  obtain ⟨t₂, nfc₂, left₂, kept, related₂⟩ := obeys.authenticateBlock related₁ nfc₁
    (Ram.stores 0 id (Ram.fresh fun _ => 0)) 4 (by decide) 4 0 keyA
    (authenticateCommand_eq four (Ram.window_stores 0 id)) lets
  obtain ⟨more₃, reads, held₃⟩ := serves.read opened₂
  obtain ⟨t₃, nfc₃, left₃, read, related₃⟩ := obeys.mifareRead related₂ nfc₂ (by decide) 4
    (Vector.replicate 16 0) reads
  refine ⟨t₃,
    ⟨true, ((Ram.stores 0 id (Ram.fresh fun _ => 0)).loads 0 (4 : UInt8).toNat).2, 4, 1, b⟩,
    nfc₃, _, left₃, ?_, related₃, held₃, ?_⟩
  · exact scanned.bind (kept.bind (read.bind (.of_run rfl)))
  · simp [Scan.tap, block_uid]

/-- A write of the card replaces its block. -/
theorem cardWriteOnBlockCalls_settles (related : R s p waiting) (held : holds p b) (data : CardKey)
    (nfc : Nfc) :
    ∃ s' nfc' p' left, Program.Settles (bus d)
        (fun passes => cardWriteOnBlockCalls passes (uidOf id) data nfc) (.closed s)
        ((1, 1, nfc'), .closed s') ∧
      R s' p' left ∧ holds p' (block4 data) := by
  have front : (uidOf id).toList.take 4 = id := by
    refine List.ext_getElem (by simp [four]) fun j _ inside => ?_
    simp [uidOf, inside]
  obtain ⟨more₁, lets, opened₁⟩ := serves.authenticated held
  obtain ⟨confirms, held₂⟩ := serves.written (block4 data) opened₁
  rw [← front] at lets confirms held₂
  obtain ⟨s', nfc', left, settles, related'⟩ :=
    obeys.cardWrite related (uidOf id) data nfc lets confirms
  exact ⟨s', nfc', _, left, settles, related', held₂⟩

/-- The passes of the loop find the card with the block that was written last. -/
theorem nfcTaskLoop_settles (turns : List Turn) (related : R s p waiting) (held : holds p b)
    (nfc : Nfc) :
    ∃ s' scans nfc', Program.Settles (bus d) (fun passes => nfcTaskLoop passes turns nfc)
        (.closed s) ((scans, nfc'), .closed s') ∧ scans.map Scan.tap = taps id b turns := by
  induction turns generalizing s p waiting b nfc with
  | nil => exact ⟨s, [], nfc, .of_run rfl, rfl⟩
  | cons turn rest ih =>
    obtain ⟨s₁, scan, nfc₁, p₁, left₁, first, related₁, held₁, tap⟩ :=
      nfcTaskPass_settles obeys serves four related held turn.uidLength nfc
    -- The card is written in between, if the server has let the reader do so.
    cases written : turn.data with
    | none =>
      obtain ⟨s₂, scans, nfc₂, rest, same⟩ := ih related₁ held₁ nfc₁
      have untouched : Program.Settles (bus d)
          (fun passes => writeBack passes scan.tap turn.data nfc₁) (.closed s₁)
          (nfc₁, .closed s₁) := by
        rw [tap, written]
        exact .of_run rfl
      refine ⟨s₂, scan :: scans, nfc₂, first.bind (untouched.bind (rest.bind (.of_run rfl))), ?_⟩
      rw [List.map_cons, tap, same, taps, written]
      rfl
    | some data =>
      obtain ⟨s₂, nfc₂, p₂, left₂, write, related₂, held₂⟩ :=
        cardWriteOnBlockCalls_settles obeys serves four related₁ held₁ data nfc₁
      obtain ⟨s₃, scans, nfc₃, rest, same⟩ := ih related₂ held₂ nfc₂
      have replaced : Program.Settles (bus d)
          (fun passes => writeBack passes scan.tap turn.data nfc₁) (.closed s₁)
          (nfc₂, .closed s₂) := by
        rw [tap, written]
        exact write.bind (.of_run rfl)
      refine ⟨s₃, scan :: scans, nfc₃, first.bind (replaced.bind (rest.bind (.of_run rfl))), ?_⟩
      rw [List.map_cons, tap, same, taps, written]
      rfl

end

/-- A card with one block, and whether it lets the reader at it. -/
structure BlockCard where
  block : CardBlock
  lets : Bool

/-- What a chip does for a card with an identifier and the key of the firmware. -/
def BlockCard.execute (id cmd : Bytes) (c : BlockCard) : Bytes × BlockCard :=
  if cmd = [0x02] then ([0x03, 0x32, 1, 6, 7], c)
  else if cmd = samCommand then ([0x15], c)
  else if cmd = [0x4A, 1, 0] then ([responseInlistpassivetarget, 1, 1, 0, 4, 8, 4] ++ id, c)
  else if cmd = authenticateCommand id then ([0x41, 0], { c with lets := true })
  else if cmd = readCommand then
    (if c.lets then [0x41, 0] ++ c.block.toList else [0x41, 0x14], { c with lets := false })
  else if cmd.take 4 = [0x40, 1, 0xA0, 4] ∧ c.lets = true then
    ([0x41, 0], { block := Vector.ofFn fun i => cmd.getD (4 + i) 0, lets := false })
  else ([0x41, 0x14], { c with lets := false })

/-- The card does what the driver expects of one. -/
theorem blockCard_serves (id : Bytes) :
    ServesCard (BlockCard.execute id) id (fun c b => c.block = b)
      (fun c b => c.block = b ∧ c.lets = true) where
  version {p b} held :=
    ⟨0x32, 1, 6, [7], by simp [BlockCard.execute], by simp [BlockCard.execute, held]⟩
  configured {p b} held := by
    have other : (0x15 : UInt8) ≠ responseInlistpassivetarget := by decide
    simp [BlockCard.execute, samCommand, held, other]
  listed {p b} held := by
    refine ⟨1, 0, 4, 8, [], ?_, ?_⟩
    · simp [BlockCard.execute, samCommand]
    · simp [BlockCard.execute, samCommand, held]
  authenticated {p b} held := by
    refine ⟨[], ?_, ?_⟩
    · simp [BlockCard.execute, samCommand, authenticateCommand]
    · simp [BlockCard.execute, samCommand, authenticateCommand, held]
  read {p b} opened := by
    obtain ⟨rfl, lets⟩ := opened
    refine ⟨[], ?_, ?_⟩
    · simp [BlockCard.execute, samCommand, authenticateCommand, readCommand, lets]
    · simp [BlockCard.execute, samCommand, authenticateCommand, readCommand]
  written {p b} b' opened := by
    obtain ⟨rfl, lets⟩ := opened
    have content : (Vector.ofFn fun i : Fin 16 => (writeCommand b').getD (4 + i) 0) = b' := by
      refine Vector.ext fun i inside => ?_
      rw [Vector.getElem_ofFn, Nat.add_comm]
      simp [writeCommand, inside]
    -- The command is none of those before.
    have asks : BlockCard.execute id (writeCommand b') p =
        ([0x41, 0],
          { block := Vector.ofFn fun i => (writeCommand b').getD (4 + i) 0, lets := false }) := by
      simp [BlockCard.execute, samCommand, authenticateCommand, readCommand, writeCommand, lets]
    rw [asks]
    exact ⟨rfl, content⟩

section
variable {d : ByteDevice σ} {execute : Bytes → π → Bytes × π} {R : σ → π → List Bytes → Prop}
  {s : σ} {p : π} {waiting : List Bytes}

/--
The write of `card_write_on_block` is reported as a success whatever the card says to it, and even
where the card has refused to let the reader in.
-/
theorem cardWrite_reported (obeys : Obeys d execute R) (related : R s p waiting) (uid : Uid)
    (data : CardKey) (nfc : Nfc) {status : UInt8} {more : Bytes}
    (lets : (execute (authenticateCommand (uid.toList.take 4)) p).1 = 0x41 :: status :: more)
    (answers : (execute (writeCommand (block4 data))
      (execute (authenticateCommand (uid.toList.take 4)) p).2).1.head? = some 0x41) :
    ∃ s' nfc', Program.Settles (bus d) (fun passes => cardWriteOnBlockCalls passes uid data nfc)
      (.closed s) ((if status ≠ 0 then 0 else 1, 1, nfc'), .closed s') := by
  obtain ⟨s', nfc', -, settles, -⟩ := obeys.cardWrite related uid data nfc lets answers
  exact ⟨s', nfc', settles⟩

/-- A card that refuses everything is reported as written. -/
theorem cardWrite_reported_refused :
    ∃ s' nfc', Program.Settles
      (bus (promptChip fun cmd (_ : Unit) => ([cmd.headD 0 + 1, 0x14], ())))
      (fun passes => cardWriteOnBlockCalls passes bobUid (Vector.replicate 15 5)
        ⟨readerNfc, Ram.fresh fun _ => 0⟩)
      (.closed ⟨(), [], []⟩) ((0, 1, nfc'), .closed s') :=
  cardWrite_reported (promptChip_obeys _) (chipState_rest ()) bobUid _ _
    (show _ = [0x41, 0x14] from rfl) rfl

end

end Rfid
