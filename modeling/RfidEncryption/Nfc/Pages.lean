import RfidEncryption.Nfc.Card

/-! What the four functions for pages make of a card that keeps pages. -/

namespace Rfid

open Device Memory

variable {σ π : Type}

/-- A page of four bytes. -/
abbrev Page := Vector UInt8 4

/-- The pages of a card. -/
abbrev Pages := UInt8 → Page

/-- The frame's command for a read from a page on. -/
def readPageCommand (page : UInt8) : Bytes := [0x40, 1, 0x30, page]

/-- The frame's command for a write of a page. -/
def writePageCommand (page : UInt8) (data : Page) : Bytes := [0x40, 1, 0xA2, page] ++ data.toList

/--
What the chip does for a card that keeps pages.

The card may have pages that cannot be read, and pages that cannot be written.
-/
structure ServesPages (execute : Bytes → π → Bytes × π) (holds : π → Pages → Prop)
    (readable writable : UInt8 → Bool) : Prop where
  /-- The response to `MIFARE_CMD_READ` -/
  read : ∀ {p c} (page : UInt8), holds p c → readable page = true → ∃ more,
    (execute (readPageCommand page) p).1 = 0x41 :: 0 :: (c page).toList ++ more
  /-- The same for a page that the card does not show. -/
  hidden : ∀ {p c} (page : UInt8), holds p c → readable page = false → ∃ status more,
    (execute (readPageCommand page) p).1 = 0x41 :: status :: more ∧ status ≠ 0
  /-- A read changes no page. -/
  kept : ∀ {p c} (page : UInt8), holds p c → holds (execute (readPageCommand page) p).2 c
  /-- The response to `MIFARE_ULTRALIGHT_CMD_WRITE` -/
  written : ∀ {p c} (page : UInt8) (data : Page), holds p c →
    (execute (writePageCommand page data) p).1.head? = some 0x41 ∧
      holds (execute (writePageCommand page data) p).2
        (if writable page then Function.update c page data else c)

/-- A call of one of the four functions. -/
inductive PageCall where
  | ultralightReadPage (page : UInt8)
  | ultralightWritePage (page : UInt8) (data : Page)
  | ntag2xxReadPage (page : UInt8)
  | ntag2xxWritePage (page : UInt8) (data : Page)

/-- The call, with what it returns and what it leaves in the caller's array. -/
def PageCall.run (passes : Nat) (buffer : Page) (nfc : Nfc) :
    PageCall → Program Bus ((UInt8 × Page) × Nfc)
  | .ultralightReadPage page => do
    let (ret, buffer, nfc) ← pn532MifareultralightReadPage passes page buffer nfc
    pure ((ret, buffer), nfc)
  | .ultralightWritePage page data => do
    let (ret, nfc) ← pn532MifareultralightWritePage passes page data nfc
    pure ((ret, buffer), nfc)
  | .ntag2xxReadPage page => do
    let (ret, buffer, nfc) ← pn532Ntag2xxReadPage passes page buffer nfc
    pure ((ret, buffer), nfc)
  | .ntag2xxWritePage page data => do
    let (ret, nfc) ← pn532Ntag2xxWritePage passes page data nfc
    pure ((ret, buffer), nfc)

/-- Some calls in a row, which share the caller's array. -/
def pageCalls (passes : Nat) : List PageCall → Page → Nfc →
    Program Bus (List (UInt8 × Page) × Nfc)
  | [], _, nfc => pure ([], nfc)
  | call :: calls, buffer, nfc => do
    let (result, nfc) ← call.run passes buffer nfc
    let (results, nfc) ← pageCalls passes calls result.2 nfc
    pure (result :: results, nfc)

section
variable (readable writable : UInt8 → Bool)

/-- A read of the pages as they are. -/
def meantRead (page : UInt8) (buffer : Page) (c : Pages) : (UInt8 × Page) × Pages :=
  if readable page then ((1, c page), c) else ((0, buffer), c)

/-- A write of the pages, which is a success whether the card has taken it or not. -/
def meantWrite (page : UInt8) (data buffer : Page) (c : Pages) : (UInt8 × Page) × Pages :=
  ((1, buffer), if writable page then Function.update c page data else c)

/-- What a call does to the pages of a card. -/
def PageCall.meant (buffer : Page) (c : Pages) : PageCall → (UInt8 × Page) × Pages
  | .ultralightReadPage page =>
    if page ≥ 64 then ((0, buffer), c) else meantRead readable page buffer c
  | .ultralightWritePage page data =>
    if page ≥ 64 then ((0, buffer), c) else meantWrite writable page data buffer c
  | .ntag2xxReadPage page =>
    if page ≥ 231 then ((0, buffer), c) else meantRead readable page buffer c
  | .ntag2xxWritePage page data =>
    if page < 4 ∨ page > 225 then ((0, buffer), c) else meantWrite writable page data buffer c

/-- What some calls in a row do to them. -/
def meantCalls : List PageCall → Page → Pages → List (UInt8 × Page) × Pages
  | [], _, c => ([], c)
  | call :: calls, buffer, c =>
    let (result, c) := call.meant readable writable buffer c
    let (results, c) := meantCalls calls result.2 c
    (result :: results, c)

end

section
variable {d : ByteDevice σ} {execute : Bytes → π → Bytes × π} {R : σ → π → List Bytes → Prop}
  {holds : π → Pages → Prop} {readable writable : UInt8 → Bool} (obeys : Obeys d execute R)
  (serves : ServesPages execute holds readable writable) {s : σ} {p : π} {waiting : List Bytes}
  {c : Pages}
include obeys serves

/-- A read of a page hands over what the card shows. -/
theorem mifareRead_meant (related : R s p waiting) (held : holds p c) (page : UInt8)
    (buffer : Page) (nfc : Nfc) :
    ∃ s' p' left nfc', Program.Settles (bus d)
        (fun passes => do
          let (ret, buffer, nfc) ← mifareRead passes page buffer nfc
          pure ((ret, buffer), nfc))
        (.closed s) (((meantRead readable page buffer c).1, nfc'), .closed s') ∧
      R s' p' left ∧ holds p' (meantRead readable page buffer c).2 := by
  have kept := serves.kept page held
  -- The status byte of the response tells whether the card shows the page.
  cases shown : readable page with
  | true =>
    obtain ⟨more, answers⟩ := serves.read page held shown
    obtain ⟨s', nfc', left, settles, related'⟩ :=
      obeys.mifareRead related nfc (by decide) page buffer answers
    have meant : meantRead readable page buffer c = ((1, c page), c) := by simp [meantRead, shown]
    rw [meant]
    exact ⟨s', _, left, nfc', settles.bind (.of_run rfl), related', kept⟩
  | false =>
    obtain ⟨status, more, answers, refused⟩ := serves.hidden page held shown
    obtain ⟨s', nfc', left, settles, related'⟩ :=
      obeys.mifareRead_refused related nfc page buffer answers refused
    have meant : meantRead readable page buffer c = ((0, buffer), c) := by simp [meantRead, shown]
    rw [meant]
    exact ⟨s', _, left, nfc', settles.bind (.of_run rfl), related', kept⟩

/-- A write of a page is reported as a success, and done where the card lets it. -/
theorem mifareWrite_meant (related : R s p waiting) (held : holds p c) (page : UInt8)
    (data buffer : Page) (nfc : Nfc) :
    ∃ s' p' left nfc', Program.Settles (bus d)
        (fun passes => do
          let (ret, nfc) ← mifareWrite passes 0xA2 page data nfc
          pure ((ret, buffer), nfc))
        (.closed s) (((meantWrite writable page data buffer c).1, nfc'), .closed s') ∧
      R s' p' left ∧ holds p' (meantWrite writable page data buffer c).2 := by
  -- The status byte of this response is not looked at.
  obtain ⟨answers, kept⟩ := serves.written page data held
  obtain ⟨s', nfc', left, settles, related'⟩ :=
    obeys.mifareWrite related nfc (by decide) 0xA2 page data answers
  exact ⟨s', _, left, nfc', settles.bind (.of_run rfl), related', kept⟩

/-- One call does to the pages what it means to, and nothing when it is out of range. -/
theorem pageCall_meant (related : R s p waiting) (held : holds p c) (call : PageCall)
    (buffer : Page) (nfc : Nfc) :
    ∃ s' p' left nfc', Program.Settles (bus d) (fun passes => call.run passes buffer nfc)
        (.closed s) (((call.meant readable writable buffer c).1, nfc'), .closed s') ∧
      R s' p' left ∧ holds p' (call.meant readable writable buffer c).2 := by
  -- Out of range nothing is sent, and otherwise the shared functions do the work.
  cases call with
  | ultralightReadPage page =>
    simp only [PageCall.run, PageCall.meant, pn532MifareultralightReadPage]
    split_ifs
    · exact ⟨s, p, waiting, nfc, .of_run rfl, related, held⟩
    · exact mifareRead_meant obeys serves related held page buffer nfc
  | ultralightWritePage page data =>
    simp only [PageCall.run, PageCall.meant, pn532MifareultralightWritePage]
    split_ifs
    · exact ⟨s, p, waiting, nfc, .of_run rfl, related, held⟩
    · exact mifareWrite_meant obeys serves related held page data buffer nfc
  | ntag2xxReadPage page =>
    simp only [PageCall.run, PageCall.meant, pn532Ntag2xxReadPage]
    split_ifs
    · exact ⟨s, p, waiting, nfc, .of_run rfl, related, held⟩
    · exact mifareRead_meant obeys serves related held page buffer nfc
  | ntag2xxWritePage page data =>
    simp only [PageCall.run, PageCall.meant, pn532Ntag2xxWritePage]
    split_ifs
    · exact ⟨s, p, waiting, nfc, .of_run rfl, related, held⟩
    · exact mifareWrite_meant obeys serves related held page data buffer nfc

/--
Calls in a row do to the pages of a card what they mean to, one after the other.

A read finds what was written last, and a write is reported as a success where the card has refused
it.
-/
theorem pageCalls_meant (related : R s p waiting) (held : holds p c) (calls : List PageCall)
    (buffer : Page) (nfc : Nfc) :
    ∃ s' p' left nfc', Program.Settles (bus d) (fun passes => pageCalls passes calls buffer nfc)
        (.closed s) (((meantCalls readable writable calls buffer c).1, nfc'), .closed s') ∧
      R s' p' left ∧ holds p' (meantCalls readable writable calls buffer c).2 := by
  induction calls generalizing s p waiting c buffer nfc with
  | nil => exact ⟨s, p, waiting, nfc, .of_run rfl, related, held⟩
  | cons call calls ih =>
    obtain ⟨s₁, p₁, left₁, nfc₁, first, related₁, held₁⟩ :=
      pageCall_meant obeys serves related held call buffer nfc
    -- The next call finds the caller's array and the pages as this one has left them.
    obtain ⟨s₂, p₂, left₂, nfc₂, rest, related₂, held₂⟩ :=
      ih related₁ held₁ (call.meant readable writable buffer c).1.2 nfc₁
    exact ⟨s₂, p₂, left₂, nfc₂, first.bind (rest.bind (.of_run rfl)), related₂, held₂⟩

end

/-- A card that keeps pages, of which some cannot be read or written. -/
def pageCardExecute (readable writable : UInt8 → Bool) (cmd : Bytes) (c : Pages) : Bytes × Pages :=
  let page := cmd.getD 3 0
  if cmd.getD 2 0 = 0x30 then
    (if readable page then [0x41, 0] ++ (c page).toList else [0x41, 0x13], c)
  else
    (if writable page then [0x41, 0] else [0x41, 0x13],
      if writable page then Function.update c page (Vector.ofFn fun i => cmd.getD (4 + i) 0) else c)

/-- The card does what the driver expects of one. -/
theorem pageCard_serves (readable writable : UInt8 → Bool) :
    ServesPages (pageCardExecute readable writable) (fun p c => p = c) readable writable where
  read page held shown := by
    subst held
    exact ⟨[], by simp [pageCardExecute, readPageCommand, shown]⟩
  hidden page held shown := by
    subst held
    exact ⟨0x13, [], by simp [pageCardExecute, readPageCommand, shown], by decide⟩
  kept page held := by
    subst held
    simp [pageCardExecute, readPageCommand]
  written page data held := by
    subst held
    -- The data stand behind the four bytes of the command.
    have content : (Vector.ofFn fun i : Fin 4 => (writePageCommand page data).getD (4 + i) 0) =
        data := by
      refine Vector.ext fun i inside => ?_
      rw [Vector.getElem_ofFn, Nat.add_comm]
      simp [writePageCommand, inside]
    have other : (writePageCommand page data).getD 2 0 ≠ 0x30 := by
      simp [writePageCommand]
    have named : (writePageCommand page data).getD 3 0 = page := by
      simp [writePageCommand]
    rw [pageCardExecute, named, content, if_neg other]
    cases writable page <;> simp

/-- A page that the card does not let be written is reported as written, and reads as before. -/
theorem pageCalls_meant_locked :
    ∃ s' p' left nfc', Program.Settles
        (bus (promptChip (pageCardExecute (fun _ => true) fun page => page ≠ 9)))
        (fun passes => pageCalls passes
          [.ntag2xxWritePage 9 (Vector.replicate 4 5), .ntag2xxReadPage 9, .ultralightReadPage 64]
          (Vector.replicate 4 7) ⟨readerNfc, Ram.fresh fun _ => 0⟩)
        (.closed ⟨fun _ => Vector.replicate 4 0, [], []⟩)
        (([(1, Vector.replicate 4 7), (1, Vector.replicate 4 0), (0, Vector.replicate 4 0)], nfc'),
          .closed s') ∧
      ChipState s' p' left ∧ p' = fun _ => Vector.replicate 4 0 :=
  pageCalls_meant (promptChip_obeys _) (pageCard_serves _ _) (chipState_rest _) rfl _ _ _

end Rfid
