import RfidEncryption.Server.Clients
import RfidEncryption.Text.Search

/-! What a client that searches replies for a status text can find in them. -/

namespace Rfid

open Reactive

/-- The text by which the reader recognises success. -/
def okText : Bytes := utf8 "200 OK"

/-- The digits of a printed number are digits. -/
theorem mem_decimal {width number : Nat} {byte : UInt8} (printed : byte ∈ decimal width number) :
    48 ≤ byte ∧ byte ≤ 57 := by
  unfold decimal at printed
  -- A byte is filled in or is the digit of the number.
  rcases List.mem_append.mp printed with filled | digit
  · rw [List.eq_of_mem_replicate filled]
    decide
  · obtain ⟨character, listed, rfl⟩ := List.mem_map.mp digit
    have isDigit := Nat.isDigit_of_mem_toDigits (by decide) (by decide) listed
    simp only [Char.isDigit, ge_iff_le, Bool.and_eq_true, decide_eq_true_eq,
      UInt32.le_iff_toNat_le] at isDigit
    -- A character below 128 keeps its number as a byte.
    have narrow : character.toUInt8.toNat = character.val.toNat % 2 ^ 8 :=
      UInt32.toNat_toUInt8 character.val
    have zero : (48 : UInt32).toNat = 48 := rfl
    have nine : (57 : UInt32).toNat = 57 := rfl
    constructor
    · rw [UInt8.le_iff_toNat_le, narrow]
      change 48 ≤ _
      change 48 ≤ _ ∧ _ ≤ 57 at isDigit
      omega
    · rw [UInt8.le_iff_toNat_le, narrow]
      change _ ≤ 57
      change 48 ≤ _ ∧ _ ≤ 57 at isDigit
      omega

/-- A date consists of digits, the letters of its names, and the marks between them. -/
theorem mem_date_text {date : HttpDate} {byte : UInt8} (listed : byte ∈ date.text) :
    48 ≤ byte ∧ byte ≤ 57 ∨
      byte ∈ utf8 "SunMonTueWedThuFriSatJanFebMarAprMayJunJulAugSepOctNovDec, :GMT" := by
  have weekday : ∀ day, utf8 (weekdayNames day) ⊆
      utf8 "SunMonTueWedThuFriSatJanFebMarAprMayJunJulAugSepOctNovDec, :GMT" := by decide
  have month : ∀ month, utf8 (monthNames month) ⊆
      utf8 "SunMonTueWedThuFriSatJanFebMarAprMayJunJulAugSepOctNovDec, :GMT" := by decide
  have fixed : ∀ text ∈ [", ", " ", ":", " GMT"], utf8 text ⊆
      utf8 "SunMonTueWedThuFriSatJanFebMarAprMayJunJulAugSepOctNovDec, :GMT" := by decide
  have digits : ∀ number, byte ∈ twoDigits number → 48 ≤ byte ∧ byte ≤ 57 := by
    intro number digit
    -- Each of the two is a digit of the number.
    have digit' : ∀ number, byte = lastDigit number → 48 ≤ byte ∧ byte ≤ 57 := by
      rintro number rfl
      rw [UInt8.le_iff_toNat_le, UInt8.le_iff_toNat_le, lastDigit, UInt8.toNat_ofNat']
      change 48 ≤ _ ∧ _ ≤ 57
      omega
    simp only [twoDigits, List.mem_cons, List.not_mem_nil, or_false] at digit
    exact digit.elim (digit' _) (digit' _)
  simp only [HttpDate.text, List.mem_append] at listed
  -- Every part of the text is one of these.
  rcases listed with (((((((((((((name | mark) | digit) | mark) | name) | mark) | digit) | digit) |
    mark) | digit) | mark) | digit) | mark) | digit) | mark
  all_goals first
    | exact .inl (digits _ digit)
    | exact .inr (weekday _ name)
    | exact .inr (month _ name)
    | exact .inr (fixed _ (by simp) mark)

/-- A date holds no letter K. -/
theorem date_text (date : HttpDate) : (75 : UInt8) ∉ date.text := by
  intro listed
  -- The letter is neither a digit nor in one of the names.
  rcases mem_date_text listed with digit | letter
  · exact absurd digit (by decide)
  · exact absurd letter (by decide)

/-- The head of a reply holds a letter K in its status line only. -/
theorem status_of_line {reply : Reply} {head : Bool} {date : HttpDate} {line : Bytes}
    (type : ∀ value ∈ reply.header.contentType, (75 : UInt8) ∉ utf8 value)
    (options : ∀ value ∈ reply.header.xContentTypeOptions, (75 : UInt8) ∉ utf8 value)
    (listed : line ∈ reply.lines head date) (found : okText <:+: line) : reply.status = .ok := by
  have letter : (75 : UInt8) ∈ line := found.subset (by decide)
  have names : ∀ text ∈
      ["Content-Type: ", "X-Content-Type-Options: ", "Date: ", "Content-Length: "],
      (75 : UInt8) ∉ utf8 text := by decide
  simp only [Reply.lines, List.mem_append, List.mem_singleton, Option.mem_toList,
    Option.map_eq_some_iff] at listed
  rcases listed with (((rfl | ⟨value, set, rfl⟩) | ⟨value, set, rfl⟩) | rfl) | length
  · -- Of the status lines only one holds the text.
    have status : ∀ status : Status, okText <:+: utf8 "HTTP/1.1 " ++ utf8 status.text →
        status = .ok := by
      intro status
      cases status <;> decide
    exact status _ found
  · exact absurd letter (by simp [names, type value set])
  · exact absurd letter (by simp [names, options value set])
  · exact absurd letter (by simp [names, date_text])
  · split_ifs at length
    · simp at length
    · obtain rfl := List.mem_singleton.mp length
      rcases List.mem_append.mp letter with named | digit
      · exact absurd named (by simp [names])
      · exact absurd (mem_decimal digit).2 (by decide)

/-- A text without line ends is found in a reply within a line of its head or in its body. -/
theorem infix_bytes {reply : Reply} {head : Bool} {date : HttpDate} {pattern : Bytes}
    (nonempty : pattern ≠ []) (ends : (13 : UInt8) ∉ pattern ∧ (10 : UInt8) ∉ pattern) :
    pattern <:+: reply.bytes head date ↔
      (∃ line ∈ reply.lines head date, pattern <:+: line) ∨
        pattern <:+: if head then [] else reply.body := by
  have cut : (reply.lines head date ++ [[]]).flatMap (fun line => line ++ [13] ++ [10]) =
      ((reply.lines head date ++ [[]]).map (· ++ [13])).flatMap (· ++ [10]) := by
    rw [List.flatMap_map]
  have empty : ¬ pattern <:+: [] := fun found => nonempty (List.infix_nil.mp found)
  rw [Reply.bytes, cut, Text.infix_lines ends.2]
  refine or_congr_left ?_
  constructor
  · intro found
    obtain ⟨line, listed, found⟩ := found
    obtain ⟨text, ofReply, rfl⟩ := List.mem_map.mp listed
    -- The first of the two line ends cuts the line off from the other.
    rw [Text.infix_append_separator ends.1, or_iff_left empty] at found
    rcases List.mem_append.mp ofReply with ofHead | last
    · exact ⟨text, ofHead, found⟩
    · obtain rfl := List.mem_singleton.mp last
      exact absurd found empty
  · intro found
    obtain ⟨line, listed, found⟩ := found
    refine ⟨line ++ [13], List.mem_map_of_mem (List.mem_append_left _ listed), ?_⟩
    exact found.trans (List.prefix_append _ _).isInfix

/-- A reply in which the status text is found is one of success. -/
theorem status_of_found {reply : Reply} {head : Bool} {date : HttpDate}
    (type : ∀ value ∈ reply.header.contentType, (75 : UInt8) ∉ utf8 value)
    (options : ∀ value ∈ reply.header.xContentTypeOptions, (75 : UInt8) ∉ utf8 value)
    (body : head = true ∨ (50 : UInt8) ∉ reply.body)
    (found : okText <:+: reply.bytes head date) : reply.status = .ok := by
  rw [infix_bytes (by decide) (by decide)] at found
  rcases found with ⟨line, listed, found⟩ | found
  · exact status_of_line type options listed found
  · -- The body is left out, or holds no digit two.
    split_ifs at found with headOnly
    · exact absurd (List.infix_nil.mp found) (by decide)
    · exact absurd found
        (Text.not_infix_of_not_mem (by decide) (body.resolve_left headOnly))

/-- Every reply starts with the letter H. -/
theorem bytes_head (reply : Reply) (head : Bool) (date : HttpDate) :
    ∃ rest, reply.bytes head date = 72 :: rest := by
  -- The status line comes first.
  have start : utf8 "HTTP/1.1 " = 72 :: utf8 "TTP/1.1 " := by decide
  simp only [Reply.bytes, Reply.lines, start, List.cons_append, List.flatMap_cons]
  exact ⟨_, rfl⟩

/-- The reply to a call for the door in which the status text is found is a grant. -/
theorem openReply_of_found {answer : Latch.Answer} {date : HttpDate}
    (found : okText <:+: (openReply answer).bytes true date) :
    (openReply answer).status = .ok := by
  -- Neither field of the reply holds a letter K.
  refine status_of_found ?_ ?_ (.inl rfl) found
  · cases answer <;> decide
  · cases answer <;> decide

section
variable (crypto : Crypto) (s : Server) (env : Env) (uid key : Bytes)

/-- The reply to a `UID_KEY` request tells whether its key matches. -/
theorem answer_uidKey {req : Request} (type : req.type = "UID_KEY") :
    (server crypto).answer s (jsonCall env req) =
      if uidKeyMatches crypto env s req then (writeOK {}).finish
      else (writeNO {} "Invalid One time AES key").finish := by
  -- The handler runs on a fresh writer, which is finished after it.
  have reply := handleUidKey_writer crypto env s {} req
  unfold Machine.answer server serve pathHandler jsonCall handleJSON
  simp only [String.reduceEq, ↓reduceIte, ne_eq, not_true_eq_false, type, reply]
  split_ifs <;> rfl

/-- The reply to a presented card tells whether its key matches. -/
theorem answer_uidKeyCall :
    (server crypto).answer s (uidKeyCall env uid key) =
      if uidKeyMatches crypto env s (uidKeyRequest uid key) then (writeOK {}).finish
      else (writeNO {} "Invalid One time AES key").finish :=
  answer_uidKey crypto s env rfl

/-- The reply to a presented card in which the status text is found is that to an accepted one. -/
theorem card_of_found {date : HttpDate}
    (found : okText <:+: ((server crypto).answer s (uidKeyCall env uid key)).bytes false date) :
    verdict crypto s (uidKeyCall env uid key) = .card uid := by
  -- An accepted card is one whose key matches.
  rw [verdict_uidKeyCall, if_pos]
  rw [answer_uidKeyCall] at found
  by_contra mismatch
  rw [if_neg mismatch] at found
  -- The reply to a wrong key has status 400, whatever is written after it.
  have ok := status_of_found (by decide) (by decide +kernel) (by decide +kernel) found
  exact absurd ok (by decide)

end

end Rfid
