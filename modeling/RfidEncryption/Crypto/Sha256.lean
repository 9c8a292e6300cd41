import Mathlib.Data.List.Basic
import Mathlib.Data.Vector.Defs

/-! SHA-256 and the keyed hash built on it, computed on byte lists. -/

namespace Sha256

/-- The sixty-four round constants. -/
def roundConstants : List UInt32 :=
  [0x428a2f98, 0x71374491, 0xb5c0fbcf, 0xe9b5dba5, 0x3956c25b, 0x59f111f1, 0x923f82a4, 0xab1c5ed5,
   0xd807aa98, 0x12835b01, 0x243185be, 0x550c7dc3, 0x72be5d74, 0x80deb1fe, 0x9bdc06a7, 0xc19bf174,
   0xe49b69c1, 0xefbe4786, 0x0fc19dc6, 0x240ca1cc, 0x2de92c6f, 0x4a7484aa, 0x5cb0a9dc, 0x76f988da,
   0x983e5152, 0xa831c66d, 0xb00327c8, 0xbf597fc7, 0xc6e00bf3, 0xd5a79147, 0x06ca6351, 0x14292967,
   0x27b70a85, 0x2e1b2138, 0x4d2c6dfc, 0x53380d13, 0x650a7354, 0x766a0abb, 0x81c2c92e, 0x92722c85,
   0xa2bfe8a1, 0xa81a664b, 0xc24b8b70, 0xc76c51a3, 0xd192e819, 0xd6990624, 0xf40e3585, 0x106aa070,
   0x19a4c116, 0x1e376c08, 0x2748774c, 0x34b0bcb5, 0x391c0cb3, 0x4ed8aa4a, 0x5b9cca4f, 0x682e6ff3,
   0x748f82ee, 0x78a5636f, 0x84c87814, 0x8cc70208, 0x90befffa, 0xa4506ceb, 0xbef9a3f7, 0xc67178f2]

/-- The eight chaining words. -/
structure State where
  (a b c d e f g h : UInt32)

/-- The chaining words before the first block. -/
def State.initial : State :=
  ⟨0x6a09e667, 0xbb67ae85, 0x3c6ef372, 0xa54ff53a, 0x510e527f, 0x9b05688c, 0x1f83d9ab, 0x5be0cd19⟩

/-- A word turned to the right. -/
def rotr (count word : UInt32) : UInt32 := word >>> count ||| word <<< (32 - count)

/-- One round over the chaining words. -/
def round (s : State) (constant word : UInt32) : State :=
  -- The choice of f and g by the bits of e.
  let first := s.h + (rotr 6 s.e ^^^ rotr 11 s.e ^^^ rotr 25 s.e) +
    (s.e &&& s.f ^^^ ~~~ s.e &&& s.g) + constant + word
  -- The majority of a, b and c.
  let second := (rotr 2 s.a ^^^ rotr 13 s.a ^^^ rotr 22 s.a) +
    (s.a &&& s.b ^^^ s.a &&& s.c ^^^ s.b &&& s.c)
  ⟨first + second, s.a, s.b, s.c, s.d + first, s.e, s.f, s.g⟩

def sigma0 (word : UInt32) : UInt32 := rotr 7 word ^^^ rotr 18 word ^^^ word >>> 3

def sigma1 (word : UInt32) : UInt32 := rotr 17 word ^^^ rotr 19 word ^^^ word >>> 10

/-- The message schedule extended by some words, the latest word first. -/
def schedule : Nat → List UInt32 → List UInt32
  | 0, words => words
  | count + 1, words => schedule count
      ((sigma1 (words.getD 1 0) + words.getD 6 0 + sigma0 (words.getD 14 0) + words.getD 15 0)
        :: words)

/-- The big-endian words of a block. -/
def wordsOf : List UInt8 → List UInt32
  | a :: b :: c :: d :: rest =>
    (a.toUInt32 <<< 24 ||| b.toUInt32 <<< 16 ||| c.toUInt32 <<< 8 ||| d.toUInt32) :: wordsOf rest
  | _ => []

/-- The chaining words after one block of sixty-four bytes. -/
def compress (s : State) (block : List UInt8) : State :=
  -- Sixteen words come from the block and forty-eight from the schedule.
  let words := (schedule 48 (wordsOf block).reverse).reverse
  let t := (roundConstants.zip words).foldl (fun t pair => round t pair.1 pair.2) s
  ⟨s.a + t.a, s.b + t.b, s.c + t.c, s.d + t.d, s.e + t.e, s.f + t.f, s.g + t.g, s.h + t.h⟩

/-- The big-endian bytes of a number, as many as asked for. -/
def bigEndian (number : Nat) : Nat → List UInt8
  | 0 => []
  | count + 1 => UInt8.ofNat (number >>> (8 * count)) :: bigEndian number count

@[simp] theorem bigEndian_length (number count : Nat) :
    (bigEndian number count).length = count := by
  induction count with
  | zero => rfl
  | succ count ih => simp [bigEndian, ih]

/-- The message with its closing bit, the zero fill and its length in bits. -/
def pad (message : List UInt8) : List UInt8 :=
  -- Nine bytes at least are added, up to a multiple of sixty-four.
  message ++ 0x80 :: List.replicate ((119 - message.length % 64) % 64) 0 ++
    bigEndian (8 * message.length) 8

/-- The chaining words after a number of blocks. -/
def absorb : Nat → State → List UInt8 → State
  | 0, s, _ => s
  | count + 1, s, message => absorb count (compress s (message.take 64)) (message.drop 64)

/-- The digest the chaining words stand for. -/
def digest (s : State) : List UInt8 :=
  [s.a, s.b, s.c, s.d, s.e, s.f, s.g, s.h].flatMap fun word => bigEndian word.toNat 4

/-- Eight words of four bytes make the thirty-two bytes of a digest. -/
theorem digest_length (s : State) : (digest s).length = 32 := by
  simp [digest]

/-- The SHA-256 digest of a message. -/
def sum256 (message : List UInt8) : Vector UInt8 32 :=
  ⟨(digest (absorb ((pad message).length / 64) .initial (pad message))).toArray,
    by simp [digest_length]⟩

/-- The key filled up to one block, hashed first when it is longer than that. -/
def hmacKey (key : List UInt8) : List UInt8 :=
  -- A key longer than a block is replaced by its digest.
  let short := if 64 < key.length then (sum256 key).toList else key
  short ++ List.replicate (64 - short.length) 0

/-- The keyed hash of a message under SHA-256. -/
def hmac (key message : List UInt8) : Vector UInt8 32 :=
  -- The inner and the outer hash start with the key masked in two ways.
  let inner := sum256 ((hmacKey key).map (· ^^^ 0x36) ++ message)
  sum256 ((hmacKey key).map (· ^^^ 0x5c) ++ inner.toList)

/-- The digest of the three-letter message of the standard's first example. -/
example : (sum256 [97, 98, 99]).toList.take 4 = [0xba, 0x78, 0x16, 0xbf] := by decide +kernel

end Sha256
