import Mathlib.Data.List.Infix
import Mathlib.Data.List.TakeWhile

/-! Finding a short pattern in a text, in its parts, and in a C string buffer. -/

namespace Text

variable {α : Type*}

/--
A pattern is found across a separator only on one side of it.

The separator occurs in the text but not in the pattern, so no occurrence can cover it.
-/
theorem infix_append_separator {pattern before behind : List α} {separator : α}
    (absent : separator ∉ pattern) :
    pattern <:+: before ++ separator :: behind ↔ pattern <:+: before ∨ pattern <:+: behind := by
  constructor
  · rintro ⟨front, back, text⟩
    -- The occurrence either ends before the separator or reaches it.
    rcases List.append_eq_append_iff.mp text with ⟨gap, ends, rest⟩ | ⟨gap, ends, rest⟩
    · exact .inl ⟨front, gap, ends.symm⟩
    · cases gap with
      | nil =>
        rw [List.append_nil] at ends
        exact .inl ⟨front, [], by rw [List.append_nil, ends]⟩
      | cons first gap =>
        obtain ⟨rfl, behindText⟩ := List.cons.inj rest
        -- An occurrence that reaches the separator must start behind it.
        rcases List.append_eq_append_iff.mp ends with ⟨cut, _, reached⟩ | ⟨cut, _, reached⟩
        · exact absurd (by rw [reached]; simp) absent
        · cases cut with
          | nil => exact absurd (by rw [← List.nil_append pattern, ← reached]; simp) absent
          | cons skipped cut =>
            obtain ⟨rfl, gapText⟩ := List.cons.inj reached
            exact .inr ⟨cut, back, by rw [behindText, gapText]; rfl⟩
  · -- Each side is a part of the whole text.
    rintro (⟨front, back, rfl⟩ | ⟨front, back, rfl⟩)
    · exact ⟨front, back ++ separator :: behind, by simp⟩
    · exact ⟨before ++ separator :: front, back, by simp⟩

/-- A pattern holding a symbol is not found in a text that lacks the symbol. -/
theorem not_infix_of_not_mem {pattern text : List α} {symbol : α} (held : symbol ∈ pattern)
    (lacking : symbol ∉ text) : ¬ pattern <:+: text :=
  fun found => lacking (found.subset held)

/-- A pattern without the line end is found in a list of lines only within one of them. -/
theorem infix_lines {pattern : List α} {lineEnd : α} (absent : lineEnd ∉ pattern)
    {lines : List (List α)} {rest : List α} :
    pattern <:+: lines.flatMap (fun line => line ++ [lineEnd]) ++ rest ↔
      (∃ line ∈ lines, pattern <:+: line) ∨ pattern <:+: rest := by
  -- Each line is cut off at its own end.
  induction lines with
  | nil => simp
  | cons line lines ih =>
    -- The first line end separates the first line from the rest.
    rw [List.flatMap_cons, List.append_assoc, List.append_assoc, List.singleton_append,
      infix_append_separator absent, ih]
    simp [or_assoc]

/-- A pattern without the mark that starts each block is found only within one of the blocks. -/
theorem infix_marked {pattern front : List α} {mark : α} (absent : mark ∉ pattern)
    {blocks : List (List α)} (marked : ∀ block ∈ blocks, ∃ rest, block = mark :: rest) :
    pattern <:+: front ++ blocks.flatten →
      pattern <:+: front ∨ ∃ block ∈ blocks, pattern <:+: block := by
  -- What stands behind a mark is the front of the blocks that follow.
  induction blocks generalizing front with
  | nil => exact fun found => .inl (by simpa using found)
  | cons block blocks ih =>
    -- The mark of the first block separates what is before it from its rest.
    obtain ⟨rest, rfl⟩ := marked block (by simp)
    intro found
    rw [List.flatten_cons, List.cons_append, infix_append_separator absent] at found
    rcases found with found | found
    · -- Found before the first mark.
      exact .inl found
    · rcases ih (fun block listed => marked block (by simp [listed])) found with found | found
      · -- Found in the rest of the first block.
        exact .inr ⟨mark :: rest, by simp, found.trans (List.suffix_cons mark rest).isInfix⟩
      · obtain ⟨block, listed, found⟩ := found
        exact .inr ⟨block, by simp [listed], found⟩

/-- What is left of a row of blocks is the end of one of them and the whole of those behind it. -/
theorem drop_flatten (count : Nat) (blocks : List (List α)) :
    ∃ front behind, blocks.flatten.drop count = front ++ behind.flatten ∧ behind <:+ blocks ∧
      (front = [] ∨ ∃ block ∈ blocks, front <:+ block) := by
  -- Whole blocks are dropped from the front until one is cut.
  induction blocks generalizing count with
  | nil => exact ⟨[], [], by simp, List.suffix_rfl, .inl rfl⟩
  | cons block blocks ih =>
    rw [List.flatten_cons, List.drop_append]
    by_cases within : count ≤ block.length
    · -- The first block is the one that is cut.
      refine ⟨block.drop count, blocks, ?_, List.suffix_cons block blocks,
        .inr ⟨block, by simp, List.drop_suffix count block⟩⟩
      rw [Nat.sub_eq_zero_of_le within, List.drop_zero]
    · -- The first block is dropped whole.
      obtain ⟨front, behind, rest, suffix, part⟩ := ih (count - block.length)
      refine ⟨front, behind, ?_, suffix.trans (List.suffix_cons block blocks), ?_⟩
      · rw [rest, List.drop_eq_nil_of_le (by omega), List.nil_append]
      · exact part.imp id fun ⟨block, listed, part⟩ => ⟨block, by simp [listed], part⟩

/-- A place in a row of blocks lies in one of them. -/
theorem exists_block_at {k : Nat} {blocks : List (List α)} (inside : k < blocks.flatten.length) :
    ∃ done block rest, blocks = done ++ block :: rest ∧ done.flatten.length ≤ k ∧
      k < done.flatten.length + block.length := by
  -- Blocks are passed over until one reaches beyond the place.
  induction blocks generalizing k with
  | nil => simp at inside
  | cons block blocks ih =>
    by_cases within : k < block.length
    · exact ⟨[], block, blocks, rfl, by simp, by simpa using within⟩
    · rw [List.flatten_cons, List.length_append] at inside
      obtain ⟨done, found, rest, rfl, before, reaches⟩ := @ih (k - block.length) (by omega)
      refine ⟨block :: done, found, rest, rfl, ?_, ?_⟩
      · rw [List.flatten_cons, List.length_append]
        omega
      · rw [List.flatten_cons, List.length_append]
        omega

/-- No cut falls inside the one occurrence of a pattern when a block holds the pattern. -/
theorem uncut_of_infix_block {pattern text : List α} {k : Nat}
    (first : ¬ pattern <:+: text.take (k + pattern.length - 1))
    (last : ¬ pattern <:+: text.drop (k + 1)) {blocks done : List (List α)} {block : List α}
    (whole : blocks.flatten = text) (initial : done <+: blocks) (listed : block ∈ blocks)
    (found : pattern <:+: block) :
    ¬ (k < done.flatten.length ∧ done.flatten.length < k + pattern.length) := by
  intro cut
  obtain ⟨rest, rfl⟩ := initial
  rw [List.flatten_append] at whole
  -- The block stands before the cut or behind it, where the pattern does not fit.
  rcases List.mem_append.mp listed with before | behind
  · refine first (found.trans ((List.infix_of_mem_flatten before).trans ?_))
    rw [← whole, List.take_append, List.take_of_length_le (by omega)]
    exact (List.prefix_append _ _).isInfix
  · refine last (found.trans ((List.infix_of_mem_flatten behind).trans ?_))
    have rest' : rest.flatten = text.drop done.flatten.length := by
      rw [← whole, List.drop_left]
    obtain ⟨more, length⟩ : ∃ more, done.flatten.length = k + 1 + more :=
      ⟨done.flatten.length - (k + 1), by omega⟩
    rw [rest', length, ← List.drop_drop]
    exact (List.drop_suffix more _).isInfix

/-- A pattern that no cut falls inside is found in the block in which it starts. -/
theorem exists_infix_block {pattern text : List α} {k : Nat} (nonempty : pattern ≠ [])
    (occurs : pattern <+: text.drop k) {blocks : List (List α)} (whole : blocks.flatten = text)
    (uncut : ∀ done, done <+: blocks →
      ¬ (k < done.flatten.length ∧ done.flatten.length < k + pattern.length)) :
    ∃ block ∈ blocks, pattern <:+: block := by
  have positive := List.length_pos_iff.mpr nonempty
  have length := occurs.length_le
  rw [List.length_drop] at length
  obtain ⟨done, block, rest, rfl, before, reaches⟩ :=
    @exists_block_at α k blocks (by rw [whole]; omega)
  -- The block also holds the end of the pattern, or a cut would fall inside it.
  have past := uncut (done ++ [block]) ⟨rest, by simp⟩
  simp only [List.flatten_append, List.flatten_singleton, List.length_append] at past
  refine ⟨block, by simp, ?_⟩
  have here : pattern <+: block.drop (k - done.flatten.length) := by
    have text' : text.drop k = block.drop (k - done.flatten.length) ++ rest.flatten := by
      rw [← whole, List.flatten_append, List.flatten_cons, List.drop_append,
        List.drop_eq_nil_of_le before, List.nil_append, List.drop_append,
        Nat.sub_eq_zero_of_le (show k - done.flatten.length ≤ block.length by omega),
        List.drop_zero]
    rw [text'] at occurs
    exact List.prefix_of_prefix_length_le occurs (List.prefix_append _ _)
      (by rw [List.length_drop]; omega)
  exact here.isInfix.trans (List.drop_suffix _ _).isInfix

/--
A pattern that occurs once is found in a block exactly when no cut falls inside it.

The pattern stands at place `k`, and neither before nor behind that place does it occur again.
-/
theorem infix_block_iff {pattern text : List α} {k : Nat} (nonempty : pattern ≠ [])
    (occurs : pattern <+: text.drop k)
    (first : ¬ pattern <:+: text.take (k + pattern.length - 1))
    (last : ¬ pattern <:+: text.drop (k + 1)) {blocks : List (List α)}
    (whole : blocks.flatten = text) :
    (∃ block ∈ blocks, pattern <:+: block) ↔
      ∀ done, done <+: blocks →
        ¬ (k < done.flatten.length ∧ done.flatten.length < k + pattern.length) := by
  constructor
  · intro found done initial
    obtain ⟨block, listed, found⟩ := found
    exact uncut_of_infix_block first last whole initial listed found
  · exact exists_infix_block nonempty occurs whole

/-- The bytes of a buffer that C reads as a string: those before the first zero byte. -/
def cString (buffer : List UInt8) : List UInt8 :=
  buffer.takeWhile (· ≠ 0)

/-- The string of a buffer starts the buffer. -/
theorem cString_initial (buffer : List UInt8) : cString buffer <+: buffer :=
  List.takeWhile_prefix _

/-- Whether the string in a buffer contains a pattern. -/
def strstr (buffer pattern : List UInt8) : Bool :=
  decide (pattern <:+: cString buffer)

/-- In a buffer without a zero byte a pattern is found wherever it occurs. -/
theorem strstr_iff_infix {buffer pattern : List UInt8} (clean : (0 : UInt8) ∉ buffer) :
    strstr buffer pattern = true ↔ pattern <:+: buffer := by
  -- The string is the whole buffer.
  have string : cString buffer = buffer :=
    List.takeWhile_eq_self_iff.mpr fun byte listed =>
      decide_eq_true fun zero => clean (zero ▸ listed)
  rw [strstr, string, decide_eq_true_iff]

/-- A pattern found in the start of a buffer is found in the buffer. -/
theorem strstr_of_prefix {start buffer pattern : List UInt8} (begins : start <+: buffer)
    (found : strstr start pattern = true) : strstr buffer pattern = true := by
  obtain ⟨rest, rfl⟩ := begins
  refine decide_eq_true ((of_decide_eq_true found).trans (List.IsPrefix.isInfix ?_))
  -- The shorter buffer's string starts the longer buffer's string.
  rw [cString, cString, List.takeWhile_append]
  split_ifs
  · exact (List.takeWhile_prefix _).trans (List.prefix_append start _)
  · exact List.prefix_rfl

/-- A pattern found in a buffer with a mark in it is found before or behind the mark. -/
theorem strstr_marked {before behind pattern : List UInt8} {mark : UInt8} (absent : mark ∉ pattern)
    (nonzero : mark ≠ 0) (found : strstr (before ++ mark :: behind) pattern = true) :
    strstr before pattern = true ∨ pattern <:+: behind := by
  -- The string ends at a zero byte, before the mark or behind it.
  have inside := of_decide_eq_true found
  rw [cString, List.takeWhile_append] at inside
  split_ifs at inside with whole
  · -- The string reaches the mark.
    rw [List.takeWhile_cons_of_pos (by simpa using nonzero),
      infix_append_separator absent] at inside
    have unbroken : cString before = before := (List.takeWhile_prefix _).eq_of_length whole
    refine inside.imp (fun found => decide_eq_true (by rwa [unbroken])) fun found => ?_
    exact found.trans (List.takeWhile_prefix _).isInfix
  · -- A zero byte before the mark hides it.
    exact .inl (decide_eq_true inside)

/-- A pattern in a buffer that ends in marked blocks is found before them or in one of them. -/
theorem strstr_front {front pattern : List UInt8} {mark : UInt8} (absent : mark ∉ pattern)
    (nonzero : mark ≠ 0) (nonempty : pattern ≠ []) {blocks : List (List UInt8)}
    (marked : ∀ block ∈ blocks, ∃ rest, block = mark :: rest) {count : Nat}
    (found : strstr (front ++ blocks.flatten.take count) pattern = true) :
    strstr front pattern = true ∨ ∃ block ∈ blocks, pattern <:+: block := by
  -- The first byte behind the front is a mark, if there is one.
  cases blocks with
  | nil => exact .inl (by simpa using found)
  | cons block blocks =>
    obtain ⟨rest, rfl⟩ := marked block (by simp)
    cases count with
    | zero => exact .inl (by simpa using found)
    | succ count =>
      rw [List.flatten_cons, List.cons_append, List.take_succ_cons] at found
      refine (strstr_marked absent nonzero found).imp id fun behind => ?_
      have inside : pattern <:+: [] ++ ((mark :: rest) :: blocks).flatten :=
        behind.trans ((List.take_prefix count _).isInfix.trans (List.suffix_cons mark _).isInfix)
      refine (infix_marked absent marked inside).resolve_left fun none => ?_
      exact nonempty (List.infix_nil.mp none)

/-- What is found in a buffer's string is found in any text the buffer is part of. -/
theorem infix_of_strstr {buffer pattern text : List UInt8} (found : strstr buffer pattern = true)
    (part : buffer <:+: text) : pattern <:+: text :=
  (of_decide_eq_true found).trans ((cString_initial buffer).isInfix.trans part)

section
variable [DecidableEq α]

/-- A text up to the first separator, and what comes behind that one. -/
def splitAt (separator : α) : List α → Option (List α × List α)
  | [] => none
  | symbol :: rest =>
    if symbol = separator then some ([], rest)
    else (splitAt separator rest).map (Prod.map (symbol :: ·) id)

/-- A text is split at its first separator. -/
theorem splitAt_append {separator : α} {text rest : List α} (absent : separator ∉ text) :
    splitAt separator (text ++ separator :: rest) = some (text, rest) := by
  induction text with
  | nil => simp [splitAt]
  | cons symbol text ih =>
    obtain ⟨other, absent⟩ := List.ne_and_not_mem_of_not_mem_cons absent
    rw [List.cons_append, splitAt, if_neg other.symm, ih absent]
    rfl

end

end Text
