import Mathlib.Data.Vector.Basic

/-! The block cipher AES with keys of 256 bits, computed on columns of four bytes. -/

namespace Aes

/-- The table of the byte substitution. -/
def substitutions : List UInt8 :=
  [0x63, 0x7c, 0x77, 0x7b, 0xf2, 0x6b, 0x6f, 0xc5, 0x30, 0x01, 0x67, 0x2b, 0xfe, 0xd7, 0xab, 0x76,
   0xca, 0x82, 0xc9, 0x7d, 0xfa, 0x59, 0x47, 0xf0, 0xad, 0xd4, 0xa2, 0xaf, 0x9c, 0xa4, 0x72, 0xc0,
   0xb7, 0xfd, 0x93, 0x26, 0x36, 0x3f, 0xf7, 0xcc, 0x34, 0xa5, 0xe5, 0xf1, 0x71, 0xd8, 0x31, 0x15,
   0x04, 0xc7, 0x23, 0xc3, 0x18, 0x96, 0x05, 0x9a, 0x07, 0x12, 0x80, 0xe2, 0xeb, 0x27, 0xb2, 0x75,
   0x09, 0x83, 0x2c, 0x1a, 0x1b, 0x6e, 0x5a, 0xa0, 0x52, 0x3b, 0xd6, 0xb3, 0x29, 0xe3, 0x2f, 0x84,
   0x53, 0xd1, 0x00, 0xed, 0x20, 0xfc, 0xb1, 0x5b, 0x6a, 0xcb, 0xbe, 0x39, 0x4a, 0x4c, 0x58, 0xcf,
   0xd0, 0xef, 0xaa, 0xfb, 0x43, 0x4d, 0x33, 0x85, 0x45, 0xf9, 0x02, 0x7f, 0x50, 0x3c, 0x9f, 0xa8,
   0x51, 0xa3, 0x40, 0x8f, 0x92, 0x9d, 0x38, 0xf5, 0xbc, 0xb6, 0xda, 0x21, 0x10, 0xff, 0xf3, 0xd2,
   0xcd, 0x0c, 0x13, 0xec, 0x5f, 0x97, 0x44, 0x17, 0xc4, 0xa7, 0x7e, 0x3d, 0x64, 0x5d, 0x19, 0x73,
   0x60, 0x81, 0x4f, 0xdc, 0x22, 0x2a, 0x90, 0x88, 0x46, 0xee, 0xb8, 0x14, 0xde, 0x5e, 0x0b, 0xdb,
   0xe0, 0x32, 0x3a, 0x0a, 0x49, 0x06, 0x24, 0x5c, 0xc2, 0xd3, 0xac, 0x62, 0x91, 0x95, 0xe4, 0x79,
   0xe7, 0xc8, 0x37, 0x6d, 0x8d, 0xd5, 0x4e, 0xa9, 0x6c, 0x56, 0xf4, 0xea, 0x65, 0x7a, 0xae, 0x08,
   0xba, 0x78, 0x25, 0x2e, 0x1c, 0xa6, 0xb4, 0xc6, 0xe8, 0xdd, 0x74, 0x1f, 0x4b, 0xbd, 0x8b, 0x8a,
   0x70, 0x3e, 0xb5, 0x66, 0x48, 0x03, 0xf6, 0x0e, 0x61, 0x35, 0x57, 0xb9, 0x86, 0xc1, 0x1d, 0x9e,
   0xe1, 0xf8, 0x98, 0x11, 0x69, 0xd9, 0x8e, 0x94, 0x9b, 0x1e, 0x87, 0xe9, 0xce, 0x55, 0x28, 0xdf,
   0x8c, 0xa1, 0x89, 0x0d, 0xbf, 0xe6, 0x42, 0x68, 0x41, 0x99, 0x2d, 0x0f, 0xb0, 0x54, 0xbb, 0x16]

/-- The table that undoes the byte substitution. -/
def unsubstitutions : List UInt8 :=
  [0x52, 0x09, 0x6a, 0xd5, 0x30, 0x36, 0xa5, 0x38, 0xbf, 0x40, 0xa3, 0x9e, 0x81, 0xf3, 0xd7, 0xfb,
   0x7c, 0xe3, 0x39, 0x82, 0x9b, 0x2f, 0xff, 0x87, 0x34, 0x8e, 0x43, 0x44, 0xc4, 0xde, 0xe9, 0xcb,
   0x54, 0x7b, 0x94, 0x32, 0xa6, 0xc2, 0x23, 0x3d, 0xee, 0x4c, 0x95, 0x0b, 0x42, 0xfa, 0xc3, 0x4e,
   0x08, 0x2e, 0xa1, 0x66, 0x28, 0xd9, 0x24, 0xb2, 0x76, 0x5b, 0xa2, 0x49, 0x6d, 0x8b, 0xd1, 0x25,
   0x72, 0xf8, 0xf6, 0x64, 0x86, 0x68, 0x98, 0x16, 0xd4, 0xa4, 0x5c, 0xcc, 0x5d, 0x65, 0xb6, 0x92,
   0x6c, 0x70, 0x48, 0x50, 0xfd, 0xed, 0xb9, 0xda, 0x5e, 0x15, 0x46, 0x57, 0xa7, 0x8d, 0x9d, 0x84,
   0x90, 0xd8, 0xab, 0x00, 0x8c, 0xbc, 0xd3, 0x0a, 0xf7, 0xe4, 0x58, 0x05, 0xb8, 0xb3, 0x45, 0x06,
   0xd0, 0x2c, 0x1e, 0x8f, 0xca, 0x3f, 0x0f, 0x02, 0xc1, 0xaf, 0xbd, 0x03, 0x01, 0x13, 0x8a, 0x6b,
   0x3a, 0x91, 0x11, 0x41, 0x4f, 0x67, 0xdc, 0xea, 0x97, 0xf2, 0xcf, 0xce, 0xf0, 0xb4, 0xe6, 0x73,
   0x96, 0xac, 0x74, 0x22, 0xe7, 0xad, 0x35, 0x85, 0xe2, 0xf9, 0x37, 0xe8, 0x1c, 0x75, 0xdf, 0x6e,
   0x47, 0xf1, 0x1a, 0x71, 0x1d, 0x29, 0xc5, 0x89, 0x6f, 0xb7, 0x62, 0x0e, 0xaa, 0x18, 0xbe, 0x1b,
   0xfc, 0x56, 0x3e, 0x4b, 0xc6, 0xd2, 0x79, 0x20, 0x9a, 0xdb, 0xc0, 0xfe, 0x78, 0xcd, 0x5a, 0xf4,
   0x1f, 0xdd, 0xa8, 0x33, 0x88, 0x07, 0xc7, 0x31, 0xb1, 0x12, 0x10, 0x59, 0x27, 0x80, 0xec, 0x5f,
   0x60, 0x51, 0x7f, 0xa9, 0x19, 0xb5, 0x4a, 0x0d, 0x2d, 0xe5, 0x7a, 0x9f, 0x93, 0xc9, 0x9c, 0xef,
   0xa0, 0xe0, 0x3b, 0x4d, 0xae, 0x2a, 0xf5, 0xb0, 0xc8, 0xeb, 0xbb, 0x3c, 0x83, 0x53, 0x99, 0x61,
   0x17, 0x2b, 0x04, 0x7e, 0xba, 0x77, 0xd6, 0x26, 0xe1, 0x69, 0x14, 0x63, 0x55, 0x21, 0x0c, 0x7d]

/-- The substitution of a byte. -/
def subByte (byte : UInt8) : UInt8 := substitutions.getD byte.toNat 0

/-- The byte with a given substitution. -/
def unsubByte (byte : UInt8) : UInt8 := unsubstitutions.getD byte.toNat 0

/-- A byte times the indeterminate, where bytes are polynomials modulo that of the standard. -/
def xtime (byte : UInt8) : UInt8 :=
  -- The highest bit leaves as 0x1b.
  let carry := byte >>> 7
  byte <<< 1 ^^^ (carry <<< 4 ^^^ (carry <<< 3 ^^^ (carry <<< 1 ^^^ carry)))

/-- A column of four bytes, or a word of the key. -/
structure Column where
  (a b c d : UInt8)
  deriving DecidableEq

/-- Four columns: a block between two steps of the cipher, or the key of a round. -/
structure State where
  (p q r s : Column)
  deriving DecidableEq

namespace Column

/-- A step on each byte of a column. -/
def map (f : UInt8 → UInt8) (x : Column) : Column := ⟨f x.a, f x.b, f x.c, f x.d⟩

/-- The sum of two columns. -/
def add (x y : Column) : Column := ⟨x.a ^^^ y.a, x.b ^^^ y.b, x.c ^^^ y.c, x.d ^^^ y.d⟩

/-- A column times 2, 3, 1, 1 in a circle. -/
def mix (x : Column) : Column :=
  let row (a b c d : UInt8) := xtime a ^^^ (xtime b ^^^ b) ^^^ c ^^^ d
  ⟨row x.a x.b x.c x.d, row x.b x.c x.d x.a, row x.c x.d x.a x.b, row x.d x.a x.b x.c⟩

/-- A column times 14, 11, 13, 9 in a circle. -/
def unmix (x : Column) : Column :=
  let row (a b c d : UInt8) :=
    (xtime (xtime (xtime a)) ^^^ xtime (xtime a) ^^^ xtime a) ^^^
      (xtime (xtime (xtime b)) ^^^ xtime b ^^^ b) ^^^
      (xtime (xtime (xtime c)) ^^^ xtime (xtime c) ^^^ c) ^^^
      (xtime (xtime (xtime d)) ^^^ d)
  ⟨row x.a x.b x.c x.d, row x.b x.c x.d x.a, row x.c x.d x.a x.b, row x.d x.a x.b x.c⟩

/-- A word of the key turned by one byte. -/
def rotate (x : Column) : Column := ⟨x.b, x.c, x.d, x.a⟩

end Column

namespace State

/-- A step on each column. -/
def map (f : Column → Column) (x : State) : State := ⟨f x.p, f x.q, f x.r, f x.s⟩

/-- A block with the key of a round added to it. -/
def addKey (x key : State) : State :=
  ⟨x.p.add key.p, x.q.add key.q, x.r.add key.r, x.s.add key.s⟩

/-- The rows of a block turned to the left by their number. -/
def shiftRows (x : State) : State :=
  ⟨⟨x.p.a, x.q.b, x.r.c, x.s.d⟩, ⟨x.q.a, x.r.b, x.s.c, x.p.d⟩,
   ⟨x.r.a, x.s.b, x.p.c, x.q.d⟩, ⟨x.s.a, x.p.b, x.q.c, x.r.d⟩⟩

/-- The rows of a block turned to the right by their number. -/
def unshiftRows (x : State) : State :=
  ⟨⟨x.p.a, x.s.b, x.r.c, x.q.d⟩, ⟨x.q.a, x.p.b, x.s.c, x.r.d⟩,
   ⟨x.r.a, x.q.b, x.p.c, x.s.d⟩, ⟨x.s.a, x.r.b, x.q.c, x.p.d⟩⟩

/-- The state of a block, column by column. -/
def ofBlock (block : Vector UInt8 16) : State :=
  ⟨⟨block[0], block[1], block[2], block[3]⟩, ⟨block[4], block[5], block[6], block[7]⟩,
   ⟨block[8], block[9], block[10], block[11]⟩, ⟨block[12], block[13], block[14], block[15]⟩⟩

/-- The bytes of a state, column by column. -/
def toBlock (x : State) : Vector UInt8 16 :=
  #v[x.p.a, x.p.b, x.p.c, x.p.d, x.q.a, x.q.b, x.q.c, x.q.d,
     x.r.a, x.r.b, x.r.c, x.r.d, x.s.a, x.s.b, x.s.c, x.s.d]

end State

/-- The words of the key extended by some more, the latest word first. -/
def schedule : Nat → List Column → List Column
  | 0, words => words
  | count + 1, words =>
    let last := words.getD 0 ⟨0, 0, 0, 0⟩
    -- Every fourth word is substituted, and every eighth is turned and marked as well.
    let turn :=
      if words.length % 8 = 0 then
        (last.rotate.map subByte).add ⟨1 <<< UInt8.ofNat (words.length / 8 - 1), 0, 0, 0⟩
      else if words.length % 8 = 4 then last.map subByte
      else last
    schedule count ((words.getD 7 ⟨0, 0, 0, 0⟩).add turn :: words)

/-- The words of a row of bytes. -/
def wordsOf : List UInt8 → List Column
  | a :: b :: c :: d :: rest => ⟨a, b, c, d⟩ :: wordsOf rest
  | _ => []

/-- The keys of the rounds in a row of words. -/
def roundKeys : List Column → List State
  | p :: q :: r :: s :: rest => ⟨p, q, r, s⟩ :: roundKeys rest
  | _ => []

/-- The keys of all rounds, that of the first addition among them. -/
def expand (key : Vector UInt8 32) : List State :=
  roundKeys (schedule 52 (wordsOf key.toList).reverse).reverse

/-- The rounds of the encryption, the last of which mixes no columns. -/
def rounds : List State → State → State
  | [], x => x
  | [key], x => (x.map (·.map subByte)).shiftRows.addKey key
  | key :: rest, x => rounds rest (((x.map (·.map subByte)).shiftRows.map Column.mix).addKey key)

/-- The rounds of the decryption, which start at the last key. -/
def unrounds : List State → State → State
  | [], x => x
  | [key], x => (x.addKey key).unshiftRows.map (·.map unsubByte)
  | key :: rest, x =>
    (((unrounds rest x).addKey key).map Column.unmix).unshiftRows.map (·.map unsubByte)

/-- A block encrypted. -/
def encrypt (key : Vector UInt8 32) (block : Vector UInt8 16) : Vector UInt8 16 :=
  match expand key with
  | [] => block
  | first :: rest => (rounds rest ((State.ofBlock block).addKey first)).toBlock

/-- A block decrypted. -/
def decrypt (key : Vector UInt8 32) (block : Vector UInt8 16) : Vector UInt8 16 :=
  match expand key with
  | [] => block
  | first :: rest => ((unrounds rest (State.ofBlock block)).addKey first).toBlock

/-- The second table undoes the first. -/
@[simp] theorem unsubByte_subByte (byte : UInt8) : unsubByte (subByte byte) = byte := by
  -- There are 256 bytes, each of them checked.
  have all : ∀ n : Fin 256, unsubByte (subByte (UInt8.ofFin n)) = UInt8.ofFin n := by
    decide +kernel
  exact all byte.toFin

/-- Summands change places. -/
theorem xor_left_comm (x y z : UInt8) : x ^^^ (y ^^^ z) = y ^^^ (x ^^^ z) := by
  rw [← UInt8.xor_assoc, UInt8.xor_comm x, UInt8.xor_assoc]

/-- A summand added twice is gone. -/
theorem xor_self_left (x y : UInt8) : x ^^^ (x ^^^ y) = y := by
  rw [← UInt8.xor_assoc, UInt8.xor_self, UInt8.zero_xor]

/-- Multiplying by the indeterminate respects sums. -/
theorem xtime_xor (x y : UInt8) : xtime (x ^^^ y) = xtime x ^^^ xtime y := by
  -- Shifts respect sums, and the order of the summands does not matter.
  simp only [xtime, UInt8.shiftLeft_xor, UInt8.shiftRight_xor]
  ac_rfl

namespace Column

/-- A column added twice is gone. -/
@[simp] theorem add_add (x y : Column) : (x.add y).add y = x := by
  simp only [add, UInt8.xor_assoc, UInt8.xor_self, UInt8.xor_zero]

/-- Mixing respects sums. -/
theorem mix_add (x y : Column) : mix (x.add y) = (mix x).add (mix y) := by
  simp only [mix, add, xtime_xor, mk.injEq]
  refine ⟨?_, ?_, ?_, ?_⟩ <;> ac_rfl

/-- Unmixing respects sums. -/
theorem unmix_add (x y : Column) : unmix (x.add y) = (unmix x).add (unmix y) := by
  simp only [unmix, add, xtime_xor, mk.injEq]
  refine ⟨?_, ?_, ?_, ?_⟩ <;> ac_rfl

/-- A column with one byte in it is restored. -/
theorem unmix_mix_single (byte : UInt8) :
    unmix (mix ⟨byte, 0, 0, 0⟩) = ⟨byte, 0, 0, 0⟩ ∧ unmix (mix ⟨0, byte, 0, 0⟩) = ⟨0, byte, 0, 0⟩ ∧
      unmix (mix ⟨0, 0, byte, 0⟩) = ⟨0, 0, byte, 0⟩ ∧
        unmix (mix ⟨0, 0, 0, byte⟩) = ⟨0, 0, 0, byte⟩ := by
  have zero : xtime 0 = 0 := by decide
  simp only [mix, unmix, xtime_xor, zero, UInt8.xor_zero, UInt8.zero_xor, UInt8.xor_self]
  -- What is left are sums of five products of the byte.
  generalize xtime (xtime (xtime (xtime byte))) = fourth
  generalize xtime (xtime (xtime byte)) = third
  generalize xtime (xtime byte) = second
  generalize xtime byte = first
  -- In order, equal summands stand side by side and cancel.
  simp only [UInt8.xor_comm, xor_left_comm, xor_self_left, UInt8.xor_self, UInt8.xor_zero, and_self]

/-- Unmixing undoes mixing. -/
@[simp] theorem unmix_mix (x : Column) : unmix (mix x) = x := by
  obtain ⟨a, b, c, d⟩ := x
  -- A column is the sum of four with one byte in them.
  have sum : (⟨a, b, c, d⟩ : Column) =
      (((⟨a, 0, 0, 0⟩ : Column).add ⟨0, b, 0, 0⟩).add ⟨0, 0, c, 0⟩).add ⟨0, 0, 0, d⟩ := by
    simp [add]
  rw [sum]
  simp only [mix_add, unmix_add, unmix_mix_single]

/-- Undoing a step on every byte restores the column. -/
theorem map_map {f g : UInt8 → UInt8} (undoes : ∀ byte, g (f byte) = byte) (x : Column) :
    (x.map f).map g = x := by
  simp [map, undoes]

end Column

namespace State

/-- A key added twice is gone. -/
@[simp] theorem addKey_addKey (x key : State) : (x.addKey key).addKey key = x := by
  simp [addKey]

/-- Rows turned to the left and to the right stand where they stood. -/
@[simp] theorem unshiftRows_shiftRows (x : State) : x.shiftRows.unshiftRows = x := rfl

/-- Undoing a step on every column restores the state. -/
theorem map_map {f g : Column → Column} (undoes : ∀ x, g (f x) = x) (x : State) :
    (x.map f).map g = x := by
  simp [map, undoes]

/-- A state is read back from its bytes. -/
@[simp] theorem ofBlock_toBlock (x : State) : ofBlock x.toBlock = x := rfl

/-- A block is written back from its columns. -/
@[simp] theorem toBlock_ofBlock (block : Vector UInt8 16) : (ofBlock block).toBlock = block := by
  obtain ⟨⟨bytes⟩, size⟩ := block
  -- A list of sixteen bytes is taken apart byte by byte.
  match bytes, size with
  | [_, _, _, _, _, _, _, _, _, _, _, _, _, _, _, _], _ => rfl

end State

/-- The rounds of the decryption undo those of the encryption. -/
@[simp] theorem unrounds_rounds (keys : List State) (x : State) :
    unrounds keys (rounds keys x) = x := by
  have bytes : ∀ x : State, (x.map (·.map subByte)).map (·.map unsubByte) = x :=
    State.map_map (Column.map_map unsubByte_subByte)
  -- The first round of the encryption is the last to be undone.
  induction keys generalizing x with
  | nil => rfl
  | cons key rest ih =>
    cases rest with
    | nil => simp [rounds, unrounds, bytes]
    | cons next rest =>
      rw [rounds, unrounds, ih]
      · simp [State.map_map Column.unmix_mix, bytes]
      · simp
      · simp

/-- Decrypting undoes encrypting, whatever the key. -/
@[simp] theorem decrypt_encrypt (key : Vector UInt8 32) (block : Vector UInt8 16) :
    decrypt key (encrypt key block) = block := by
  -- Both use the keys of the same rounds.
  unfold decrypt encrypt
  cases expand key with
  | nil => rfl
  | cons first rest => simp

/-- The block of the standard's example for keys of 256 bits. -/
example : (encrypt (Vector.ofFn fun i => UInt8.ofNat i)
    (Vector.ofFn fun i => UInt8.ofNat (17 * i))).toList.take 4 = [0x8e, 0xa2, 0xb7, 0xca] := by
  decide +kernel

end Aes
