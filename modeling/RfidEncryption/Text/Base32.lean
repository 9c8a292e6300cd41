import Mathlib.Data.List.Basic
import Mathlib.Tactic.IntervalCases

/-! Bytes written in the thirty-two letters of base32, without padding. -/

namespace Text

/-- The letter of a value below thirty-two. -/
def base32Letter (value : UInt8) : UInt8 :=
  -- The digits stand for the values behind those of the letters.
  if value < 26 then 65 + value else 24 + value

/-- The last five bits of a byte. -/
def fiveBits (byte : UInt8) : UInt8 := byte &&& 31

/-- The values that five bytes make, five bits each. -/
def base32Quantum (a b c d e : UInt8) : List UInt8 :=
  [a >>> 3, fiveBits (b >>> 6) ||| fiveBits (a <<< 2), fiveBits (b >>> 1),
    fiveBits (c >>> 4) ||| fiveBits (b <<< 4), d >>> 7 ||| fiveBits (c <<< 1), fiveBits (d >>> 2),
    e >>> 5 ||| fiveBits (d <<< 3), fiveBits e]

/-- The values of a row of bytes, no more of them than the last bytes need. -/
def base32Values : List UInt8 → List UInt8
  | [] => []
  | [a] => (base32Quantum a 0 0 0 0).take 2
  | [a, b] => (base32Quantum a b 0 0 0).take 4
  | [a, b, c] => (base32Quantum a b c 0 0).take 5
  | [a, b, c, d] => (base32Quantum a b c d 0).take 7
  | a :: b :: c :: d :: e :: rest => base32Quantum a b c d e ++ base32Values rest

/-- The letters of a row of bytes. -/
def base32Encode (bytes : List UInt8) : List UInt8 := (base32Values bytes).map base32Letter

/-- Two bytes are the same when each of their bits is. -/
theorem byte_ext {x y : UInt8} (same : ∀ i < 8, x.toBitVec.getLsbD i = y.toBitVec.getLsbD i) :
    x = y := by
  apply UInt8.eq_of_toBitVec_eq
  apply BitVec.eq_of_getLsbD_eq
  exact same

section
variable (a b c d e : UInt8)

/-- The first byte of five is in the first two values. -/
theorem base32_first :
    (a >>> 3) <<< 3 ||| (fiveBits (b >>> 6) ||| fiveBits (a <<< 2)) >>> 2 = a := by
  apply byte_ext
  intro i small
  interval_cases i <;> simp [fiveBits]

/-- The second byte of five is in the three values from the second on. -/
theorem base32_second :
    (fiveBits (b >>> 6) ||| fiveBits (a <<< 2)) <<< 6 ||| fiveBits (b >>> 1) <<< 1 |||
      (fiveBits (c >>> 4) ||| fiveBits (b <<< 4)) >>> 4 = b := by
  apply byte_ext
  intro i small
  interval_cases i <;> simp [fiveBits]

/-- The third byte of five is in the fourth and the fifth value. -/
theorem base32_third :
    (fiveBits (c >>> 4) ||| fiveBits (b <<< 4)) <<< 4 |||
      (d >>> 7 ||| fiveBits (c <<< 1)) >>> 1 = c := by
  apply byte_ext
  intro i small
  interval_cases i <;> simp [fiveBits]

/-- The fourth byte of five is in the three values from the fifth on. -/
theorem base32_fourth :
    (d >>> 7 ||| fiveBits (c <<< 1)) <<< 7 ||| fiveBits (d >>> 2) <<< 2 |||
      (e >>> 5 ||| fiveBits (d <<< 3)) >>> 3 = d := by
  apply byte_ext
  intro i small
  interval_cases i <;> simp [fiveBits]

/-- The fifth byte of five is in the last two values. -/
theorem base32_fifth : (e >>> 5 ||| fiveBits (d <<< 3)) <<< 5 ||| fiveBits e = e := by
  apply byte_ext
  intro i small
  interval_cases i <;> simp [fiveBits]

/-- Five bits of a byte are a value below thirty-two, and so are five bits of two bytes. -/
theorem fiveBits_or_lt (x y : UInt8) : fiveBits x ||| fiveBits y < 32 := by
  have below (z : UInt8) : (fiveBits z).toNat < 2 ^ 5 := by
    rw [fiveBits, UInt8.toNat_and]
    exact Nat.and_lt_two_pow _ (by decide)
  apply UInt8.lt_iff_toNat_lt.mpr
  rw [UInt8.toNat_or]
  exact Nat.or_lt_two_pow (below x) (below y)

/-- Every value is below thirty-two. -/
theorem base32Quantum_lt : ∀ value ∈ base32Quantum a b c d e, value < 32 := by
  have one (x : UInt8) : fiveBits x < 32 := by
    have both := fiveBits_or_lt x x
    rwa [UInt8.or_self] at both
  have few {x y : UInt8} (small : x = fiveBits x) : x ||| fiveBits y < 32 := by
    rw [small]
    exact fiveBits_or_lt x y
  have first : a >>> 3 = fiveBits (a >>> 3) := by
    apply byte_ext
    intro i small
    interval_cases i <;> simp [fiveBits]
  have fourth : d >>> 7 = fiveBits (d >>> 7) := by
    apply byte_ext
    intro i small
    interval_cases i <;> simp [fiveBits]
  have fifth : e >>> 5 = fiveBits (e >>> 5) := by
    apply byte_ext
    intro i small
    interval_cases i <;> simp [fiveBits]
  simp only [base32Quantum, List.forall_mem_cons]
  refine ⟨?_, fiveBits_or_lt _ _, one _, fiveBits_or_lt _ _, few fourth, one _, few fifth, one _,
    ?_⟩
  · rw [first]
    exact one _
  · simp

/-- Every value of a row of bytes is below thirty-two. -/
theorem base32Values_lt (bytes : List UInt8) : ∀ value ∈ base32Values bytes, value < 32 := by
  induction bytes using base32Values.induct with
  | case1 => simp [base32Values]
  | case2 a => exact fun value listed => base32Quantum_lt _ _ _ _ _ _ (List.mem_of_mem_take listed)
  | case3 a b =>
    exact fun value listed => base32Quantum_lt _ _ _ _ _ _ (List.mem_of_mem_take listed)
  | case4 a b c =>
    exact fun value listed => base32Quantum_lt _ _ _ _ _ _ (List.mem_of_mem_take listed)
  | case5 a b c d =>
    exact fun value listed => base32Quantum_lt _ _ _ _ _ _ (List.mem_of_mem_take listed)
  | case6 a b c d e rest ih =>
    intro value listed
    cases List.mem_append.mp listed with
    | inl first => exact base32Quantum_lt _ _ _ _ _ _ first
    | inr later => exact ih value later

end

end Text
