import Mathlib.Data.Nat.Digits.Defs

/-! One-time passwords as RFC 4226 defines them: truncated digests shown in decimal digits. -/

namespace Hotp

/-- The number whose bytes are written from the most significant one on. -/
def bytesValue (bytes : List UInt8) : Nat :=
  Nat.ofDigits 256 (bytes.reverse.map UInt8.toNat)

/-- The number whose decimal digits are written from the most significant one on. -/
def digitsValue (text : List UInt8) : Nat :=
  Nat.ofDigits 10 (text.reverse.map fun byte => byte.toNat - 48)

/-- The low 31 bits of the four bytes at the offset that the last four bits of a digest name. -/
def truncate (digest : List UInt8) : Nat :=
  bytesValue ((digest.drop ((digest.getLastD 0).toNat % 16)).take 4) % 2 ^ 31

/-- A text of as many decimal digits as asked for, which shows the last places of a number. -/
structure IsCode (digits number : Nat) (text : List UInt8) : Prop where
  length : text.length = digits
  decimal : ∀ byte ∈ text, 48 ≤ byte ∧ byte ≤ 57
  value : digitsValue text = number % 10 ^ digits

/-- Four bytes make a number of 32 bits. -/
theorem bytesValue_four (a b c d : UInt8) :
    bytesValue [a, b, c, d] =
      a.toNat * 2 ^ 24 + b.toNat * 2 ^ 16 + c.toNat * 2 ^ 8 + d.toNat := by
  simp only [bytesValue, List.reverse_cons, List.reverse_nil, List.nil_append, List.cons_append,
    List.map_cons, List.map_nil, Nat.ofDigits_cons, Nat.ofDigits_nil]
  omega

/-- A leading byte counts for as many bytes as follow it. -/
theorem bytesValue_cons (byte : UInt8) (bytes : List UInt8) :
    bytesValue (byte :: bytes) = byte.toNat * 256 ^ bytes.length + bytesValue bytes := by
  rw [bytesValue, List.reverse_cons, List.map_append, Nat.ofDigits_append]
  simp [bytesValue, Nat.mul_comm, Nat.add_comm]

/-- The truncation of a digest reads the four bytes from the offset in its last byte on. -/
theorem truncate_eq {digest : List UInt8} {last a b c d : UInt8} {k : Nat}
    (ends : digest.getLast? = some last) (offset : k = last.toNat % 16)
    (first : digest[k]? = some a) (second : digest[k + 1]? = some b)
    (third : digest[k + 2]? = some c) (fourth : digest[k + 3]? = some d) :
    truncate digest = bytesValue [a, b, c, d] % 2 ^ 31 := by
  have four : (digest.drop k).take 4 = [a, b, c, d] := by
    refine List.ext_getElem? fun i => ?_
    rw [List.getElem?_take, List.getElem?_drop]
    -- Four places are listed, and none behind them.
    rcases i with _ | _ | _ | _ | i
    · simpa using first
    · simpa using second
    · simpa using third
    · simpa using fourth
    · simp
  rw [truncate, List.getLastD_eq_getLast?, ends, Option.getD_some, ← offset, four]

/-- Leading zeros do not change the number a text of digits shows. -/
theorem digitsValue_zeros (count : Nat) (text : List UInt8) :
    digitsValue (List.replicate count 48 ++ text) = digitsValue text := by
  simp [digitsValue, Nat.ofDigits_append_replicate_zero]

/-- A number has one code. -/
theorem IsCode.unique {digits number : Nat} {text other : List UInt8}
    (code : IsCode digits number text) (again : IsCode digits number other) : text = other := by
  -- The digits are told by the number, and the bytes by the digits.
  have below : ∀ bytes : List UInt8, (∀ byte ∈ bytes, 48 ≤ byte ∧ byte ≤ 57) →
      ∀ digit ∈ bytes.reverse.map (fun byte => byte.toNat - 48), digit < 10 := by
    intro bytes decimal digit listed
    obtain ⟨byte, inside, rfl⟩ := List.mem_map.mp listed
    have bound := UInt8.le_iff_toNat_le.mp (decimal byte (List.mem_reverse.mp inside)).2
    have nine : (57 : UInt8).toNat = 57 := rfl
    omega
  have same := Nat.ofDigits_inj_of_len_eq (by decide : 1 < 10)
    (by simp [code.length, again.length]) (below text code.decimal) (below other again.decimal)
    (code.value.trans again.value.symm)
  rw [List.map_reverse, List.map_reverse, List.reverse_inj] at same
  refine List.ext_getElem (by rw [code.length, again.length]) fun i left right => ?_
  have digit := List.getElem_of_eq same (i := i) (by simpa using left)
  simp only [List.getElem_map] at digit
  have first := UInt8.le_iff_toNat_le.mp (code.decimal _ (List.getElem_mem left)).1
  have second := UInt8.le_iff_toNat_le.mp (again.decimal _ (List.getElem_mem right)).1
  have zero : (48 : UInt8).toNat = 48 := rfl
  exact UInt8.toNat_inj.mp (by omega)

end Hotp
