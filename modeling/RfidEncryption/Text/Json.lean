import Mathlib.Data.List.Basic
import RfidEncryption.Text.Hex

/-! JSON objects whose values are texts, written without a space and read back. -/

namespace Text

/-- The members of an object in their order, a value of `none` standing for `null`. -/
abbrev JsonFields := List (List UInt8 × Option (List UInt8))

/-- The digit of a value below sixteen, letters in lower case. -/
def lowerHexDigit (value : UInt8) : UInt8 :=
  if value < 10 then 48 + value else 87 + value

/-- How one byte of a text is written between quotation marks. -/
def jsonEscape (byte : UInt8) : List UInt8 :=
  if byte = 34 ∨ byte = 92 then [92, byte]
  else if 32 ≤ byte then [byte]
  -- Five of the control characters have a letter.
  else if byte = 8 then [92, 98]
  else if byte = 12 then [92, 102]
  else if byte = 10 then [92, 110]
  else if byte = 13 then [92, 114]
  else if byte = 9 then [92, 116]
  else [92, 117, 48, 48, lowerHexDigit (byte >>> 4), lowerHexDigit (byte &&& 15)]

/-- A text between quotation marks. -/
def jsonString (text : List UInt8) : List UInt8 := [34] ++ text.flatMap jsonEscape ++ [34]

/-- A text, or the word for none. -/
def jsonValue : Option (List UInt8) → List UInt8
  | none => [110, 117, 108, 108]
  | some text => jsonString text

/-- One member of an object. -/
def jsonMember (field : List UInt8 × Option (List UInt8)) : List UInt8 :=
  jsonString field.1 ++ [58] ++ jsonValue field.2

/-- The members behind the first one, and the end of the object. -/
def jsonTail : JsonFields → List UInt8
  | [] => [125]
  | field :: rest => [44] ++ jsonMember field ++ jsonTail rest

/-- An object with its members. -/
def jsonObject : JsonFields → List UInt8
  | [] => [123, 125]
  | field :: rest => [123] ++ jsonMember field ++ jsonTail rest

/-- What a text between quotation marks consists of: bytes and numbered UTF-16 units. -/
inductive JsonUnit where
  | byte (byte : UInt8)
  | numbered (unit : Nat)

/-- Whether a UTF-16 unit is the first half of a character. -/
def IsHighSurrogate (unit : Nat) : Prop := 0xD800 ≤ unit ∧ unit < 0xDC00

/-- Whether a UTF-16 unit is the second half of a character. -/
def IsLowSurrogate (unit : Nat) : Prop := 0xDC00 ≤ unit ∧ unit < 0xE000

instance : DecidablePred IsHighSurrogate := fun _ => inferInstanceAs (Decidable (_ ∧ _))

instance : DecidablePred IsLowSurrogate := fun _ => inferInstanceAs (Decidable (_ ∧ _))

/-- The bytes of a text, half a character being replaced by U+FFFD. -/
def jsonBytes : List JsonUnit → List UInt8
  | [] => []
  | .byte byte :: rest => byte :: jsonBytes rest
  | .numbered high :: .numbered low :: rest =>
    if IsHighSurrogate high ∧ IsLowSurrogate low then
      String.utf8EncodeChar (Char.ofNat (0x10000 + (high - 0xD800) * 0x400 + (low - 0xDC00))) ++
        jsonBytes rest
    else if IsHighSurrogate high ∨ IsLowSurrogate high then
      String.utf8EncodeChar (Char.ofNat 0xFFFD) ++ jsonBytes (.numbered low :: rest)
    else String.utf8EncodeChar (Char.ofNat high) ++ jsonBytes (.numbered low :: rest)
  | .numbered unit :: rest =>
    if IsHighSurrogate unit ∨ IsLowSurrogate unit then
      String.utf8EncodeChar (Char.ofNat 0xFFFD) ++ jsonBytes rest
    else String.utf8EncodeChar (Char.ofNat unit) ++ jsonBytes rest

/-- The number four hexadecimal digits stand for. -/
def hexUnit (a b c d : UInt8) : Option Nat := do
  let a ← hexValue a
  let b ← hexValue b
  let c ← hexValue c
  let d ← hexValue d
  pure (((a.toNat * 16 + b.toNat) * 16 + c.toNat) * 16 + d.toNat)

/-- The byte an escape of one letter stands for. -/
def unescape (letter : UInt8) : Option UInt8 :=
  if letter = 34 ∨ letter = 92 ∨ letter = 47 then some letter
  else if letter = 98 then some 8
  else if letter = 102 then some 12
  else if letter = 110 then some 10
  else if letter = 114 then some 13
  else if letter = 116 then some 9
  else none

/-- What stands before the closing quotation mark, and what comes behind it. -/
def readJsonUnits : List UInt8 → Option (List JsonUnit × List UInt8)
  | [] => none
  | byte :: rest =>
    if byte = 34 then some ([], rest)
    else if byte = 92 then
      match rest with
      | 117 :: a :: b :: c :: d :: rest =>
        (hexUnit a b c d).bind fun unit =>
          (readJsonUnits rest).map (Prod.map (JsonUnit.numbered unit :: ·) id)
      | letter :: rest =>
        (unescape letter).bind fun byte =>
          (readJsonUnits rest).map (Prod.map (JsonUnit.byte byte :: ·) id)
      | [] => none
    -- Control characters have to be escaped.
    else if byte < 32 then none
    else (readJsonUnits rest).map (Prod.map (JsonUnit.byte byte :: ·) id)

/-- The text behind an opening quotation mark, and what comes behind it. -/
def readJsonString (text : List UInt8) : Option (List UInt8 × List UInt8) := do
  let (units, behind) ← readJsonUnits text
  pure (jsonBytes units, behind)

/-- A text without the spaces and line ends it starts with. -/
def skipSpaces (text : List UInt8) : List UInt8 :=
  text.dropWhile fun byte => byte = 32 ∨ byte = 9 ∨ byte = 10 ∨ byte = 13

/-- The value of a member, and what comes behind it. -/
def readJsonValue (text : List UInt8) : Option (Option (List UInt8) × List UInt8) :=
  match skipSpaces text with
  | 34 :: rest => do
    let (text, behind) ← readJsonString rest
    pure (some text, behind)
  | 110 :: 117 :: 108 :: 108 :: rest => some (none, rest)
  | _ => none

/-- A member, and what comes behind it. -/
def readJsonMember (text : List UInt8) :
    Option ((List UInt8 × Option (List UInt8)) × List UInt8) :=
  match skipSpaces text with
  | 34 :: rest => do
    let (name, behind) ← readJsonString rest
    match skipSpaces behind with
    | 58 :: behind => do
      let (value, behind) ← readJsonValue behind
      pure ((name, value), behind)
    | _ => none
  | _ => none

/-- At most so many members behind the first one, and what comes behind the object. -/
def readJsonTail : Nat → List UInt8 → Option (JsonFields × List UInt8)
  | 0, _ => none
  | count + 1, text =>
    match skipSpaces text with
    | 125 :: rest => some ([], rest)
    | 44 :: rest => do
      let (field, behind) ← readJsonMember rest
      let (fields, behind) ← readJsonTail count behind
      pure (field :: fields, behind)
    | _ => none

/-- The object a text starts with, and what comes behind it. -/
def readJsonObject (text : List UInt8) : Option (JsonFields × List UInt8) :=
  match skipSpaces text with
  | 123 :: rest =>
    match skipSpaces rest with
    | 125 :: behind => some ([], behind)
    | _ => do
      let (field, behind) ← readJsonMember rest
      -- Every member takes at least one byte, so that many of them are enough.
      let (fields, behind) ← readJsonTail (behind.length + 1) behind
      pure (field :: fields, behind)
  | _ => none

/-- What a written byte is read as. -/
def jsonUnit (byte : UInt8) : JsonUnit :=
  if 32 ≤ byte ∨ byte = 8 ∨ byte = 12 ∨ byte = 10 ∨ byte = 13 ∨ byte = 9 then .byte byte
  else .numbered byte.toNat

/-- A control character is one byte, and the one its number is written for. -/
theorem control_number : ∀ byte : UInt8, byte < 32 →
    hexUnit 48 48 (lowerHexDigit (byte >>> 4)) (lowerHexDigit (byte &&& 15)) = some byte.toNat ∧
      String.utf8EncodeChar (Char.ofNat byte.toNat) = [byte] := by
  -- There are 256 bytes, each of them checked.
  have all : ∀ n : Fin 256,
      let byte := UInt8.ofFin n
      byte < 32 →
        hexUnit 48 48 (lowerHexDigit (byte >>> 4)) (lowerHexDigit (byte &&& 15)) =
            some byte.toNat ∧
          String.utf8EncodeChar (Char.ofNat byte.toNat) = [byte] := by decide +kernel
  exact fun byte => all byte.toFin

section
variable (rest : List UInt8)

/-- A byte that needs no escape is read as it is. -/
theorem readJsonUnits_plain {byte : UInt8} (large : 32 ≤ byte) (mark : ¬ (byte = 34 ∨ byte = 92)) :
    readJsonUnits (byte :: rest) =
      (readJsonUnits rest).map (Prod.map (JsonUnit.byte byte :: ·) id) := by
  have small : ¬ byte < 32 := by
    rw [UInt8.not_lt]
    exact large
  obtain ⟨quote, backslash⟩ := not_or.mp mark
  rw [readJsonUnits.eq_def]
  simp only [if_neg quote, if_neg backslash, if_neg small]

/-- A letter behind a backslash is read as the byte it stands for. -/
theorem readJsonUnits_letter {letter byte : UInt8} (stands : unescape letter = some byte) :
    readJsonUnits (92 :: letter :: rest) =
      (readJsonUnits rest).map (Prod.map (JsonUnit.byte byte :: ·) id) := by
  have other : letter ≠ 117 := by
    intro same
    rw [same] at stands
    cases stands
  rw [readJsonUnits.eq_def]
  simp only [if_neg (show (92 : UInt8) ≠ 34 by decide), if_pos]
  split
  · exact absurd (List.cons.inj ‹_›).1 other
  · obtain ⟨rfl, rfl⟩ := List.cons.inj ‹letter :: rest = _›
    rw [stands, Option.bind_some]
  · cases ‹letter :: rest = []›

/-- Four digits behind a backslash and their letter are read as a number. -/
theorem readJsonUnits_number {a b c d : UInt8} {unit : Nat} (stands : hexUnit a b c d = some unit) :
    readJsonUnits (92 :: 117 :: a :: b :: c :: d :: rest) =
      (readJsonUnits rest).map (Prod.map (JsonUnit.numbered unit :: ·) id) := by
  simp [readJsonUnits, stands]

/-- A written byte is read as one unit. -/
theorem readJsonUnits_escape (byte : UInt8) :
    readJsonUnits (jsonEscape byte ++ rest) =
      (readJsonUnits rest).map (Prod.map (jsonUnit byte :: ·) id) := by
  unfold jsonEscape
  split_ifs with mark plain backspace feed line ret tab
  · -- A quotation mark and a backslash stand for themselves behind a backslash.
    have itself : unescape byte = some byte := by
      rw [unescape, if_pos]
      cases mark with
      | inl quote => exact .inl quote
      | inr backslash => exact .inr (.inl backslash)
    have unit : jsonUnit byte = .byte byte := by
      cases mark with
      | inl quote => rw [quote]; rfl
      | inr backslash => rw [backslash]; rfl
    rw [unit]
    exact readJsonUnits_letter rest itself
  · rw [jsonUnit, if_pos (.inl plain)]
    exact readJsonUnits_plain rest plain mark
  · rw [backspace]
    exact readJsonUnits_letter rest rfl
  · rw [feed]
    exact readJsonUnits_letter rest rfl
  · rw [line]
    exact readJsonUnits_letter rest rfl
  · rw [ret]
    exact readJsonUnits_letter rest rfl
  · rw [tab]
    exact readJsonUnits_letter rest rfl
  · -- The other control characters are numbered.
    have unit : jsonUnit byte = .numbered byte.toNat := by
      rw [jsonUnit, if_neg]
      simp [plain, backspace, feed, line, ret, tab]
    rw [unit]
    exact readJsonUnits_number rest (control_number byte (UInt8.not_le.mp plain)).1

/-- A small number is a character of its own. -/
theorem jsonBytes_numbered {unit : Nat} (small : unit < 0xD800) (units : List JsonUnit) :
    jsonBytes (.numbered unit :: units) =
      String.utf8EncodeChar (Char.ofNat unit) ++ jsonBytes units := by
  have high : ¬ IsHighSurrogate unit := fun surrogate => absurd surrogate.1 (by omega)
  have low : ¬ IsLowSurrogate unit := fun surrogate => absurd surrogate.1 (by omega)
  -- What comes next matters to halves of characters only.
  cases units with
  | nil => simp [jsonBytes, high, low]
  | cons next units =>
    cases next with
    | byte byte => simp [jsonBytes, high, low]
    | numbered next => simp [jsonBytes, high, low]

/-- The units a text was read as make up the text. -/
theorem jsonBytes_units (text : List UInt8) : jsonBytes (text.map jsonUnit) = text := by
  induction text with
  | nil => rfl
  | cons byte text ih =>
    rw [List.map_cons, jsonUnit]
    split_ifs with plain
    · rw [jsonBytes, ih]
    · have control : byte < 32 := UInt8.not_le.mp (not_or.mp plain).1
      have small : byte.toNat < 32 := UInt8.lt_iff_toNat_lt.mp control
      rw [jsonBytes_numbered (by omega), (control_number byte control).2, ih, List.singleton_append]

/-- A written text is read back. -/
theorem readJsonString_text (text : List UInt8) :
    readJsonString (text.flatMap jsonEscape ++ 34 :: rest) = some (text, rest) := by
  have units : readJsonUnits (text.flatMap jsonEscape ++ 34 :: rest) =
      some (text.map jsonUnit, rest) := by
    induction text with
    | nil => simp [readJsonUnits.eq_def (34 :: rest)]
    | cons byte text ih =>
      rw [List.flatMap_cons, List.append_assoc, readJsonUnits_escape, ih]
      rfl
  simp [readJsonString, units, jsonBytes_units]

/-- A written value is read back. -/
theorem readJsonValue_value (value : Option (List UInt8)) :
    readJsonValue (jsonValue value ++ rest) = some (value, rest) := by
  cases value with
  | none => rfl
  | some text =>
    have opened : skipSpaces (jsonValue (some text) ++ rest) =
        34 :: (text.flatMap jsonEscape ++ 34 :: rest) := by
      simp [jsonValue, jsonString, skipSpaces]
    rw [readJsonValue, opened]
    simp [readJsonString_text]

/-- A written member is read back. -/
theorem readJsonMember_member (field : List UInt8 × Option (List UInt8)) :
    readJsonMember (jsonMember field ++ rest) = some (field, rest) := by
  have opened : skipSpaces (jsonMember field ++ rest) =
      34 :: (field.1.flatMap jsonEscape ++ 34 :: 58 :: (jsonValue field.2 ++ rest)) := by
    simp [jsonMember, jsonString, skipSpaces]
  have colon (behind : List UInt8) : skipSpaces (58 :: behind) = 58 :: behind := rfl
  rw [readJsonMember, opened]
  simp [readJsonString_text, colon, readJsonValue_value]

/-- Written members are read back where enough of them are tried. -/
theorem readJsonTail_tail {count : Nat} {fields : JsonFields} (enough : fields.length < count) :
    readJsonTail count (jsonTail fields ++ rest) = some (fields, rest) := by
  induction fields generalizing count with
  | nil =>
    cases count with
    | zero => cases enough
    | succ count => rfl
  | cons field fields ih =>
    cases count with
    | zero => cases enough
    | succ count =>
      have opened : skipSpaces (jsonTail (field :: fields) ++ rest) =
          44 :: (jsonMember field ++ (jsonTail fields ++ rest)) := by
        simp [jsonTail, skipSpaces]
      rw [List.length_cons, Nat.add_lt_add_iff_right] at enough
      rw [readJsonTail, opened]
      simp [readJsonMember_member, ih enough]

/-- Every member takes at least one byte. -/
theorem length_jsonTail (fields : JsonFields) : fields.length < (jsonTail fields).length := by
  induction fields with
  | nil => exact Nat.one_pos
  | cons field fields ih =>
    simp only [jsonTail, List.length_cons, List.length_append]
    omega

/-- A written object is read back, whatever comes behind it. -/
theorem readJsonObject_object (fields : JsonFields) :
    readJsonObject (jsonObject fields ++ rest) = some (fields, rest) := by
  cases fields with
  | nil => rfl
  | cons field fields =>
    have opened : skipSpaces (jsonObject (field :: fields) ++ rest) =
        123 :: (jsonMember field ++ (jsonTail fields ++ rest)) := by
      simp [jsonObject, skipSpaces]
    -- A member starts with a quotation mark, so that the object is not empty.
    have member : skipSpaces (jsonMember field ++ (jsonTail fields ++ rest)) =
        34 :: (field.1.flatMap jsonEscape ++ 34 :: 58 :: (jsonValue field.2 ++
          (jsonTail fields ++ rest))) := by
      simp [jsonMember, jsonString, skipSpaces]
    have enough : fields.length < (jsonTail fields).length + rest.length + 1 := by
      have taken := length_jsonTail fields
      omega
    rw [readJsonObject, opened]
    simp only [member]
    simp [readJsonMember_member, readJsonTail_tail rest enough]

end

end Text
