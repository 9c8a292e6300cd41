import Mathlib.Data.List.Basic

/-! Bytes that reach a device bit by bit, through a shift register with a clock and a selection. -/

namespace Device

/-- The bits of a byte, the least significant one first. -/
def bits (byte : UInt8) : List Bool :=
  (List.range 8).map fun i => byte &&& (1 : UInt8) <<< UInt8.ofNat i != 0

/-- The byte of some bits, the least significant one first. -/
def ofBits : List Bool → UInt8
  | [] => 0
  | bit :: rest => (if bit then (1 : UInt8) else 0) ||| ofBits rest <<< 1

@[simp] theorem bits_length (byte : UInt8) : (bits byte).length = 8 := rfl

/-- The bits of a byte make up the byte. -/
@[simp] theorem ofBits_bits : ∀ byte : UInt8, ofBits (bits byte) = byte := by
  -- There are 256 bytes, each of them checked.
  have all : ∀ n : Fin 256, ofBits (bits (UInt8.ofFin n)) = UInt8.ofFin n := by decide +kernel
  exact fun byte => all byte.toFin

/-- Seven bits of a byte come before the last one. -/
theorem bits_split (byte : UInt8) :
    bits byte = (bits byte).take 7 ++ [(bits byte).getD 7 false] := by
  simp [bits, List.range_succ]

/-- A device that exchanges whole bytes while it is selected. -/
structure ByteDevice (σ : Type) where
  select : σ → σ
  deselect : σ → σ
  /-- The byte that is handed out next. -/
  out : σ → UInt8
  /-- A byte was taken in, and another one handed out. -/
  exchange : UInt8 → σ → σ
  /-- Some milliseconds pass. -/
  wait : Nat → σ → σ

/-- A device that keeps what it takes in, and hands out the last byte of it. -/
def ByteDevice.keeper : ByteDevice (List UInt8) where
  select s := s
  deselect s := s
  out s := s.headD 0
  exchange byte s := byte :: s
  wait _ s := s

/-- A device that takes in a bit at every rising edge of a clock while it is selected. -/
structure Clocked (σ : Type) where
  select : σ → σ
  deselect : σ → σ
  /-- The level of the line it drives. -/
  out : σ → Bool
  rise : Bool → σ → σ
  fall : σ → σ
  wait : Nat → σ → σ

/-- A shift register in front of a device, with the bits of an unfinished byte. -/
structure Shift (σ : Type) where
  row : List Bool
  device : σ

namespace ByteDevice

variable {σ : Type} (d : ByteDevice σ)

/-- The bytes of a message, taken in one after the other. -/
def takeIn (message : List UInt8) (s : σ) : σ := message.foldl (fun s byte => d.exchange byte s) s

/-- Bytes that are handed out one after the other, each after a pause and for a zero. -/
def handOut (ms : Nat) : (count : Nat) → σ → List UInt8 × σ
  | 0, s => ([], s)
  | count + 1, s =>
    let s := d.wait ms s
    let (rest, last) := handOut ms count (d.exchange 0 s)
    (d.out s :: rest, last)

/-- The device behind a shift register, which every selection empties. -/
def shift : Clocked (Shift σ) where
  select s := ⟨[], d.select s.device⟩
  deselect s := ⟨[], d.deselect s.device⟩
  out s := (bits (d.out s.device)).getD s.row.length false
  -- The eighth bit completes a byte.
  rise bit s :=
    if s.row.length < 7 then { s with row := s.row ++ [bit] }
    else ⟨[], d.exchange (ofBits (s.row ++ [bit])) s.device⟩
  fall s := s
  wait ms s := { s with device := d.wait ms s.device }

/-- A row of bits is shifted in. -/
def shiftIn (row : List Bool) (s : Shift σ) : Shift σ :=
  row.foldl (fun s bit => d.shift.rise bit s) s

section
variable (s : σ)

@[simp] theorem takeIn_nil : d.takeIn [] s = s := rfl

@[simp] theorem takeIn_cons (byte : UInt8) (rest : List UInt8) :
    d.takeIn (byte :: rest) s = d.takeIn rest (d.exchange byte s) := rfl

/-- A message in two parts is taken in part by part. -/
theorem takeIn_append (front rest : List UInt8) :
    d.takeIn (front ++ rest) s = d.takeIn rest (d.takeIn front s) := by
  simp [takeIn]

/-- As many bytes are handed out as were asked for. -/
@[simp] theorem handOut_length (ms count : Nat) : (d.handOut ms count s).1.length = count := by
  induction count generalizing s with
  | zero => rfl
  | succ count ih => simp [handOut, ih]

@[simp] theorem shiftIn_nil (s : Shift σ) : d.shiftIn [] s = s := rfl

@[simp] theorem shiftIn_cons (bit : Bool) (rest : List Bool) (s : Shift σ) :
    d.shiftIn (bit :: rest) s = d.shiftIn rest (d.shift.rise bit s) := rfl

/-- A row in two parts is shifted in part by part. -/
theorem shiftIn_append (front rest : List Bool) (s : Shift σ) :
    d.shiftIn (front ++ rest) s = d.shiftIn rest (d.shiftIn front s) := by
  simp [shiftIn]

/-- A row that does not fill the register waits in it. -/
theorem shiftIn_part (before row : List Bool) (part : before.length + row.length < 8) :
    d.shiftIn row ⟨before, s⟩ = ⟨before ++ row, s⟩ := by
  induction row generalizing before with
  | nil => simp [shiftIn]
  | cons bit rest ih =>
    simp only [List.length_cons] at part
    have room : before.length < 7 := by omega
    have first : d.shift.rise bit ⟨before, s⟩ = ⟨before ++ [bit], s⟩ := by simp [shift, room]
    have rest := ih (before ++ [bit]) (by simp; omega)
    rw [List.append_assoc, List.singleton_append] at rest
    simpa [shiftIn, first] using rest

/-- A row that fills the register is taken in as a byte. -/
theorem shiftIn_full (row : List Bool) (full : row.length = 8) :
    d.shiftIn row ⟨[], s⟩ = ⟨[], d.exchange (ofBits row) s⟩ := by
  -- The first seven bits wait for the last one.
  obtain ⟨front, bit, rfl⟩ :=
    List.eq_nil_or_concat row |>.resolve_left (by rintro rfl; simp at full)
  simp only [List.concat_eq_append, List.length_append, List.length_singleton] at full
  have waits := d.shiftIn_part s [] front (by simp; omega)
  have last : ¬ front.length < 7 := by omega
  simp only [List.concat_eq_append, shiftIn, List.foldl_append] at waits ⊢
  rw [waits]
  simp [shift, last]

/-- A row that fills the register behind a bit is taken in as a byte with that bit first. -/
theorem shiftIn_ahead (ahead : Bool) (row : List Bool) (full : row.length = 7) :
    d.shiftIn row ⟨[ahead], s⟩ = ⟨[], d.exchange (ofBits (ahead :: row)) s⟩ := by
  have whole := d.shiftIn_full s (ahead :: row) (by simp [full])
  have first : d.shift.rise ahead ⟨[], s⟩ = ⟨[ahead], s⟩ := by simp [shift]
  rwa [shiftIn, List.foldl_cons, first] at whole

/-- The bits of a byte arrive as that byte. -/
theorem shiftIn_bits (byte : UInt8) :
    d.shiftIn (bits byte) ⟨[], s⟩ = ⟨[], d.exchange byte s⟩ := by
  rw [d.shiftIn_full s (bits byte) (bits_length byte), ofBits_bits]

end

end ByteDevice

/-- What a register one bit ahead takes the bytes of a message for. -/
def delayed (ahead : Bool) : List UInt8 → List UInt8
  | [] => []
  | byte :: rest => ofBits (ahead :: (bits byte).take 7) :: delayed ((bits byte).getD 7 false) rest

/-- The bit that is left over in a register one bit ahead. -/
def leftOver (ahead : Bool) : List UInt8 → Bool
  | [] => ahead
  | byte :: rest => leftOver ((bits byte).getD 7 false) rest

/-- A register one bit ahead takes every byte in with the last bit of the one before it. -/
theorem ByteDevice.shiftIn_delayed {σ : Type} (d : ByteDevice σ) (s : σ) (ahead : Bool)
    (message : List UInt8) :
    d.shiftIn (message.flatMap bits) ⟨[ahead], s⟩ =
      ⟨[leftOver ahead message], d.takeIn (delayed ahead message) s⟩ := by
  induction message generalizing ahead s with
  | nil => rfl
  | cons byte rest ih =>
    -- Seven bits fill the register, and the eighth is ahead of the next byte.
    have full := d.shiftIn_ahead s ahead ((bits byte).take 7) (by simp)
    have next := ih (d.exchange (ofBits (ahead :: (bits byte).take 7)) s) ((bits byte).getD 7 false)
    have last (s : σ) :
        d.shiftIn [(bits byte).getD 7 false] ⟨[], s⟩ = ⟨[(bits byte).getD 7 false], s⟩ :=
      d.shiftIn_part s [] _ (by simp)
    rw [List.flatMap_cons, bits_split byte, shiftIn_append, shiftIn_append, full, last]
    exact next

end Device
