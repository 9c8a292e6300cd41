import RfidEncryption.Text.Hex
import RfidEncryption.Text.Search

/-! Addresses that carry named values in their query. -/

namespace Text

/-- The query of an address: what stands between its question mark and its fragment. -/
def queryOf (address : List UInt8) : List UInt8 :=
  match splitAt 63 (address.takeWhile (· ≠ 35)) with
  | some (_, query) => query
  | none => []

/-- A part of a query as it was before it was put into an address. -/
def percentDecode : List UInt8 → List UInt8
  | [] => []
  | byte :: rest =>
    if byte = 43 then 32 :: percentDecode rest
    else if byte = 37 then
      match rest with
      | a :: b :: rest =>
        match hexValue a, hexValue b with
        | some high, some low => (high <<< 4 ||| low) :: percentDecode rest
        -- A percent sign without two digits stands for itself.
        | _, _ => byte :: percentDecode (a :: b :: rest)
      | rest => byte :: percentDecode rest
    else byte :: percentDecode rest

/-- The value of a pair that has a name. -/
def pairValue (name pair : List UInt8) : Option (List UInt8) :=
  match splitAt 61 pair with
  | some (key, value) => if percentDecode key = name then some (percentDecode value) else none
  | none => if percentDecode pair = name then some [] else none

/-- The first value an address has for a name. -/
def queryGet (name address : List UInt8) : Option (List UInt8) :=
  ((queryOf address).splitOn 38).findSome? (pairValue name)

/-- A text that means the same inside an address as outside: none of the bytes `#%&+=?` is in it. -/
def Unreserved (text : List UInt8) : Prop :=
  ∀ byte ∈ text, byte ≠ 35 ∧ byte ≠ 37 ∧ byte ≠ 38 ∧ byte ≠ 43 ∧ byte ≠ 61 ∧ byte ≠ 63

instance : DecidablePred Unreserved := fun text => List.decidableBAll _ text

section
variable {text name value : List UInt8}

/-- A text without reserved bytes is one when it is put together from others. -/
theorem Unreserved.append {other : List UInt8} (plain : Unreserved text)
    (more : Unreserved other) : Unreserved (text ++ other) := by
  intro byte inside
  cases List.mem_append.mp inside with
  | inl front => exact plain byte front
  | inr back => exact more byte back

/-- A text without reserved bytes is decoded to itself. -/
theorem percentDecode_unreserved (plain : Unreserved text) : percentDecode text = text := by
  induction text with
  | nil => rfl
  | cons byte text ih =>
    obtain ⟨-, percent, -, plus, -, -⟩ := plain byte (by simp)
    have rest := ih fun other inside => plain other (by simp [inside])
    rw [percentDecode.eq_def]
    simp only [if_neg plus, if_neg percent, rest]

/-- An address has the value that its query starts with. -/
theorem queryGet_first {front rest : List UInt8} (before : Unreserved front)
    (named : Unreserved name) (plain : Unreserved value) (behind : (35 : UInt8) ∉ rest)
    (ends : ∀ byte ∈ rest.head?, byte = 38) :
    queryGet name (front ++ 63 :: (name ++ 61 :: (value ++ rest))) = some value := by
  have visible : ∀ byte ∈ front ++ 63 :: (name ++ 61 :: (value ++ rest)), byte ≠ 35 := by
    intro byte inside
    simp only [List.mem_append, List.mem_cons] at inside
    rcases inside with inside | rfl | inside | rfl | inside | inside
    · exact (before byte inside).1
    · decide
    · exact (named byte inside).1
    · decide
    · exact (plain byte inside).1
    · exact fun same => behind (same ▸ inside)
  have query : queryOf (front ++ 63 :: (name ++ 61 :: (value ++ rest))) =
      name ++ 61 :: (value ++ rest) := by
    have absent : (63 : UInt8) ∉ front := fun inside => (before 63 inside).2.2.2.2.2 rfl
    have all := List.takeWhile_eq_self_iff.mpr fun byte inside =>
      decide_eq_true (visible byte inside)
    rw [queryOf, all, splitAt_append absent]
  -- The first pair ends where the rest begins.
  have pair : pairValue name (name ++ 61 :: value) = some value := by
    have absent : (61 : UInt8) ∉ name := fun inside => (named 61 inside).2.2.2.2.1 rfl
    rw [pairValue, splitAt_append absent]
    simp [percentDecode_unreserved named, percentDecode_unreserved plain]
  have whole : (38 : UInt8) ∉ name ++ 61 :: value := by
    intro inside
    simp only [List.mem_append, List.mem_cons] at inside
    rcases inside with inside | other | inside
    · exact (named 38 inside).2.2.1 rfl
    · exact absurd other (by decide)
    · exact (plain 38 inside).2.2.1 rfl
  cases rest with
  | nil =>
    rw [queryGet, query, List.append_nil, List.splitOn_eq_singleton whole]
    simp [pair]
  | cons byte rest =>
    obtain rfl : byte = 38 := ends byte (by simp)
    have split := List.splitOn_append_cons_self_of_not_mem whole rest
    rw [List.append_assoc, List.cons_append] at split
    rw [queryGet, query, split, List.findSome?_cons, pair]

end

end Text
