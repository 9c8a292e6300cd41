import RfidEncryption.Crypto.Hotp
import RfidEncryption.Text.Search

/-! HTTP messages that say how long they are, one behind the other on a connection. -/

namespace Text

/-- A request: the words of its first line, its header fields in order, and its body. -/
structure Message where
  method : List UInt8
  target : List UInt8
  fields : List (List UInt8 × List UInt8)
  body : List UInt8
  deriving DecidableEq, Repr

/-- The text of a version of the protocol: `HTTP/1.1`. -/
def version : List UInt8 := [72, 84, 84, 80, 47, 49, 46, 49]

/-- The name of the field that tells the length of a body, in lower case: `content-length`. -/
def lengthName : List UInt8 := [99, 111, 110, 116, 101, 110, 116, 45, 108, 101, 110, 103, 116, 104]

/-- A byte with the letters of ASCII in lower case. -/
def lowerByte (byte : UInt8) : UInt8 := if 65 ≤ byte ∧ byte ≤ 90 then byte + 32 else byte

/-- The line a request starts with. -/
def Message.firstLine (m : Message) : List UInt8 := m.method ++ [32] ++ m.target ++ [32] ++ version

/-- The line of a field, without its end. -/
def fieldLine (field : List UInt8 × List UInt8) : List UInt8 := field.1 ++ [58, 32] ++ field.2

/-- The bytes of a request on a connection. -/
def Message.bytes (m : Message) : List UInt8 :=
  (m.firstLine :: m.fields.map fieldLine).flatMap (fun line => line ++ [13, 10]) ++ [13, 10] ++
    m.body

/-- A line without the carriage return it ends with. -/
def trimReturn (line : List UInt8) : List UInt8 :=
  if line.getLast? = some 13 then line.dropLast else line

/-- The lines up to the first empty one, and what comes behind it. -/
def readLines (line : List UInt8) : List UInt8 → Option (List (List UInt8) × List UInt8)
  | [] => none
  | byte :: rest =>
    if byte = 10 then
      if trimReturn line = [] then some ([], rest)
      else (readLines [] rest).map (Prod.map (trimReturn line :: ·) id)
    else readLines (line ++ [byte]) rest

/-- The method and the target in the first line of a request. -/
def readFirstLine (line : List UInt8) : Option (List UInt8 × List UInt8) := do
  let (method, rest) ← splitAt 32 line
  let (target, rest) ← splitAt 32 rest
  if rest = version then some (method, target) else none

/-- A value without the blanks around it. -/
def trimBlanks (text : List UInt8) : List UInt8 :=
  let blank := fun byte : UInt8 => decide (byte = 32 ∨ byte = 9)
  ((text.dropWhile blank).reverse.dropWhile blank).reverse

/-- The name and the value in the line of a field. -/
def readField (line : List UInt8) : Option (List UInt8 × List UInt8) := do
  let (name, value) ← splitAt 58 line
  some (name, trimBlanks value)

/-- Whether a field tells the length of the body. -/
def isLength (field : List UInt8 × List UInt8) : Bool := field.1.map lowerByte = lengthName

/-- The length of the body, which is empty unless a field tells otherwise. -/
def bodyLength (fields : List (List UInt8 × List UInt8)) : Option Nat :=
  match fields.find? isLength with
  | none => some 0
  | some (_, value) =>
    if value ≠ [] ∧ value.all (fun byte => 48 ≤ byte ∧ byte ≤ 57) then
      some (Hotp.digitsValue value)
    else none

/--
What the lines of a request say: its method and target, its fields, and how long its body is.

A `Transfer-Encoding` is not considered, and a request without a `Host` is not rejected.
-/
def readHead : List (List UInt8) →
    Option ((List UInt8 × List UInt8) × List (List UInt8 × List UInt8) × Nat)
  | [] => none
  | first :: lines => do
    let words ← readFirstLine first
    let fields ← lines.mapM readField
    let length ← bodyLength fields
    some (words, fields, length)

/-- The request a text starts with, when all of it is there, and what comes behind it. -/
def readMessage (text : List UInt8) : Option (Message × List UInt8) := do
  let (lines, rest) ← readLines [] text
  let ((method, target), fields, length) ← readHead lines
  if length ≤ rest.length then some (⟨method, target, fields, rest.take length⟩, rest.drop length)
  else none

/-- At most so many requests from the front of a text on. -/
def readMessages : Nat → List UInt8 → List Message
  | 0, _ => []
  | count + 1, text =>
    match readMessage text with
    | some (m, rest) => m :: readMessages count rest
    | none => []

/-- The requests that have arrived on a connection. -/
def arrivedMessages (text : List UInt8) : List Message := readMessages text.length text

/--
A request that a reader of requests takes for what it is.

It says nothing of `Host` and `Transfer-Encoding`, as the reader does not look at them.
-/
structure Message.WellFormed (m : Message) : Prop where
  method : (32 : UInt8) ∉ m.method
  target : (32 : UInt8) ∉ m.target
  line : (10 : UInt8) ∉ m.firstLine
  names : ∀ field ∈ m.fields, (58 : UInt8) ∉ field.1
  values : ∀ field ∈ m.fields, trimBlanks field.2 = field.2
  lines : ∀ field ∈ m.fields, (10 : UInt8) ∉ fieldLine field
  length : bodyLength m.fields = some m.body.length

/-- The entries of a row that are there as a whole in the first bytes of it. -/
def fitting {α : Type*} (size : α → Nat) : Nat → List α → List α
  | _, [] => []
  | count, entry :: rest =>
    if size entry ≤ count then entry :: fitting size (count - size entry) rest else []

/-- Entries that take no bytes are passed over. -/
theorem fitting_filterMap {α β : Type*} {size : α → Nat} {size' : β → Nat} {f : α → Option β}
    (same : ∀ entry, size entry = ((f entry).map size').getD 0) (count : Nat) (row : List α) :
    (fitting size count row).filterMap f = fitting size' count (row.filterMap f) := by
  induction row generalizing count with
  | nil => rfl
  | cons entry row ih =>
    rw [fitting]
    cases found : f entry with
    | none =>
      have empty : size entry = 0 := by rw [same, found]; rfl
      rw [if_pos (by omega), List.filterMap_cons_none found, List.filterMap_cons_none found, ih,
        empty, Nat.sub_zero]
    | some other =>
      have filled : size entry = size' other := by rw [same, found]; rfl
      rw [List.filterMap_cons_some found, fitting, filled]
      split_ifs with fits
      · rw [List.filterMap_cons_some found, ih]
      · rfl

section
variable {text rest : List UInt8}

/-- The carriage return at the end of a line belongs to its end. -/
theorem trimReturn_append (line : List UInt8) : trimReturn (line ++ [13]) = line := by
  rw [trimReturn, List.getLast?_concat, if_pos rfl, List.dropLast_concat]

/-- A line is read up to its end. -/
theorem readLines_line {line : List UInt8} (absent : (10 : UInt8) ∉ text) :
    readLines line (text ++ [13, 10] ++ rest) =
      if line ++ text = [] then some ([], rest)
      else (readLines [] rest).map (Prod.map ((line ++ text) :: ·) id) := by
  induction text generalizing line with
  | nil =>
    rw [List.nil_append, List.append_nil, List.cons_append, readLines, if_neg (by decide)]
    rw [List.singleton_append, readLines, if_pos rfl, trimReturn_append]
  | cons byte text ih =>
    obtain ⟨other, absent⟩ := List.ne_and_not_mem_of_not_mem_cons absent
    rw [List.cons_append, List.cons_append, readLines, if_neg other.symm, ih absent]
    rw [List.append_assoc, List.singleton_append]

/-- Lines are read up to the empty one. -/
theorem readLines_lines {lines : List (List UInt8)}
    (whole : ∀ line ∈ lines, line ≠ [] ∧ (10 : UInt8) ∉ line) :
    readLines [] (lines.flatMap (fun line => line ++ [13, 10]) ++ [13, 10] ++ rest) =
      some (lines, rest) := by
  induction lines with
  | nil => exact readLines_line (by simp)
  | cons line lines ih =>
    obtain ⟨filled, absent⟩ := whole line (by simp)
    have later := ih fun line listed => whole line (by simp [listed])
    rw [List.flatMap_cons, List.append_assoc, List.append_assoc, readLines_line absent,
      List.nil_append, if_neg filled, ← List.append_assoc, later]
    rfl

/-- Lines are read the same when more bytes arrive. -/
theorem readLines_append {line : List UInt8} {lines : List (List UInt8)} (more : List UInt8)
    (read : readLines line text = some (lines, rest)) :
    readLines line (text ++ more) = some (lines, rest ++ more) := by
  induction text generalizing line lines with
  | nil => cases read
  | cons byte text ih =>
    rw [readLines] at read
    rw [List.cons_append, readLines]
    split_ifs at read ⊢ with ends empty
    · obtain ⟨rfl, rfl⟩ := Prod.mk.inj (Option.some.inj read)
      rfl
    · obtain ⟨⟨behind, rest⟩, later, same⟩ := Option.map_eq_some_iff.mp read
      obtain ⟨rfl, rfl⟩ := Prod.mk.inj same
      rw [ih later]
      rfl
    · exact ih read

/-- A request is read the same when more bytes arrive. -/
theorem readMessage_append {m : Message} (more : List UInt8)
    (read : readMessage text = some (m, rest)) :
    readMessage (text ++ more) = some (m, rest ++ more) := by
  rw [readMessage, Option.bind_eq_bind, Option.bind_eq_some_iff] at read
  obtain ⟨⟨lines, body⟩, first, read⟩ := read
  obtain ⟨⟨⟨method, target⟩, fields, length⟩, head, read⟩ := Option.bind_eq_some_iff.mp read
  -- The body that was there still is.
  simp only at read
  split_ifs at read with there
  obtain ⟨rfl, rfl⟩ := Prod.mk.inj (Option.some.inj read)
  have still : length ≤ (body ++ more).length := by
    rw [List.length_append]
    omega
  simp only [readMessage, readLines_append more first, head, Option.bind_eq_bind, Option.bind_some,
    if_pos still, List.take_append_of_le_length there, List.drop_append_of_le_length there]

end

/-- A text without blanks has none around it. -/
theorem trimBlanks_eq {text : List UInt8} (plain : ∀ byte ∈ text, byte ≠ 32 ∧ byte ≠ 9) :
    trimBlanks text = text := by
  have kept {row : List UInt8} (inside : ∀ byte ∈ row, byte ≠ 32 ∧ byte ≠ 9) :
      row.dropWhile (fun byte => decide (byte = 32 ∨ byte = 9)) = row := by
    cases row with
    | nil => rfl
    | cons byte row =>
      have other : ¬ (byte = 32 ∨ byte = 9) := not_or.mpr (inside byte (by simp))
      rw [List.dropWhile_cons_of_neg (by simpa using other)]
  rw [trimBlanks, kept plain, kept fun byte inside => plain byte (List.mem_reverse.mp inside),
    List.reverse_reverse]

/-- A field is read from its line. -/
theorem readField_fieldLine {field : List UInt8 × List UInt8} (name : (58 : UInt8) ∉ field.1)
    (value : trimBlanks field.2 = field.2) : readField (fieldLine field) = some field := by
  have blank : trimBlanks (32 :: field.2) = trimBlanks field.2 := rfl
  have split : splitAt 58 (fieldLine field) = some (field.1, 32 :: field.2) := by
    rw [fieldLine, List.append_assoc]
    exact splitAt_append name
  simp only [readField, split, Option.bind_eq_bind, Option.bind_some, blank, value]

namespace Message.WellFormed

variable {m : Message} (well : m.WellFormed)
include well

/-- The lines of a request say what it is. -/
theorem readHead_lines :
    readHead (m.firstLine :: m.fields.map fieldLine) =
      some ((m.method, m.target), m.fields, m.body.length) := by
  have words : readFirstLine m.firstLine = some (m.method, m.target) := by
    have line : m.firstLine = m.method ++ 32 :: (m.target ++ 32 :: version) := by
      simp [Message.firstLine]
    simp only [readFirstLine, line, splitAt_append well.method, splitAt_append well.target,
      Option.bind_eq_bind, Option.bind_some, if_pos]
  have fields : (m.fields.map fieldLine).mapM readField = some m.fields := by
    have each (field) (listed : field ∈ m.fields) : readField (fieldLine field) = some field :=
      readField_fieldLine (well.names field listed) (well.values field listed)
    revert each
    generalize m.fields = fields
    intro each
    induction fields with
    | nil => rfl
    | cons field fields ih =>
      rw [List.map_cons, List.mapM_cons, each field (by simp),
        ih fun field listed => each field (by simp [listed])]
      rfl
  rw [readHead, words, Option.bind_eq_bind, Option.bind_some, fields, Option.bind_eq_bind,
    Option.bind_some, well.length]
  rfl

/-- A request is read from its bytes, whatever comes behind them. -/
theorem readMessage_bytes (rest : List UInt8) :
    readMessage (m.bytes ++ rest) = some (m, rest) := by
  have whole : ∀ line ∈ m.firstLine :: m.fields.map fieldLine, line ≠ [] ∧ (10 : UInt8) ∉ line := by
    intro line listed
    cases List.mem_cons.mp listed with
    | inl first =>
      rw [first]
      exact ⟨by simp [Message.firstLine], well.line⟩
    | inr later =>
      obtain ⟨field, inside, rfl⟩ := List.mem_map.mp later
      exact ⟨by simp [fieldLine], well.lines field inside⟩
  have lines := @readLines_lines (m.body ++ rest) _ whole
  rw [← List.append_assoc] at lines
  rw [readMessage, Message.bytes, lines]
  simp [well.readHead_lines]

/-- A request that has not arrived as a whole is not read at all. -/
theorem readMessage_part {count : Nat} (part : count < m.bytes.length) :
    readMessage (m.bytes.take count) = none := by
  cases read : readMessage (m.bytes.take count) with
  | none => rfl
  | some found =>
    -- What was read of a part would be read of the whole, with the other part behind it.
    have whole := readMessage_append (m.bytes.drop count) read
    have itself := well.readMessage_bytes []
    rw [List.append_nil] at itself
    rw [List.take_append_drop, itself] at whole
    have behind := congrArg List.length (Prod.mk.inj (Option.some.inj whole)).2
    rw [List.length_nil, List.length_append, List.length_drop] at behind
    omega

end Message.WellFormed

/-- Of a row of requests those are read that have arrived as a whole. -/
theorem arrivedMessages_take {ms : List Message} (well : ∀ m ∈ ms, m.WellFormed) (count : Nat) :
    arrivedMessages ((ms.flatMap Message.bytes).take count) =
      fitting (fun m => m.bytes.length) count ms := by
  -- As many requests as bytes are tried, which is more than enough.
  suffices general : ∀ tries, ((ms.flatMap Message.bytes).take count).length ≤ tries →
      readMessages tries ((ms.flatMap Message.bytes).take count) =
        fitting (fun m => m.bytes.length) count ms from
    general _ le_rfl
  induction ms generalizing count with
  | nil =>
    intro tries _
    rw [List.flatMap_nil, List.take_nil, fitting]
    cases tries with
    | zero => rfl
    | succ tries => rfl
  | cons m ms ih =>
    intro tries enough
    have first : m.WellFormed := well m (by simp)
    have filled : 0 < m.bytes.length := by simp [Message.bytes]
    rw [List.flatMap_cons, List.take_append] at enough ⊢
    rw [fitting]
    cases tries with
    | zero =>
      rw [List.length_append, List.length_take] at enough
      have none_fits : ¬ m.bytes.length ≤ count := by omega
      rw [if_neg none_fits, readMessages]
    | succ tries =>
      by_cases fits : m.bytes.length ≤ count
      · rw [List.take_of_length_le fits] at enough ⊢
        rw [List.length_append] at enough
        rw [if_pos fits, readMessages, first.readMessage_bytes]
        exact congrArg (m :: ·)
          (ih (fun m listed => well m (by simp [listed])) _ tries (by omega))
      · have before : count < m.bytes.length := by omega
        rw [Nat.sub_eq_zero_of_le before.le, List.take_zero, List.append_nil, if_neg fits,
          readMessages, first.readMessage_part before]

end Text
