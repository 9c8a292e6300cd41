import RfidEncryption.Reader.Request
import RfidEncryption.Server.Replies

/-! Whether the reader recognises an accepted card, however the reply is cut into reads. -/

namespace Rfid

open Reactive

/-- The session after the loop that reads the reply to `UID_KEY`, until the connection ends. -/
def afterReply (r : Reader) (reads : List Bytes) : Reader :=
  -- Behind the read that ends the loop nothing more is read.
  (reads.foldl Reader.received r).readFailed

/-- A reader that is about to write the card reads nothing more. -/
theorem foldl_writeCard {r : Reader} (stage : r.stage = .writeCard) (reads : List Bytes) :
    (reads.foldl Reader.received r).stage = .writeCard := by
  induction reads generalizing r with
  | nil => exact stage
  | cons buf reads ih => exact ih (by simp [Reader.received, stage])

/-- The loop ends at the first read that holds the status text. -/
theorem foldl_recvUidKey {r : Reader} (waits : r.stage = .recvUidKey) (reads : List Bytes) :
    (reads.foldl Reader.received r).stage =
      if ∃ buf ∈ reads, Text.strstr buf okText = true then .writeCard else .recvUidKey := by
  induction reads generalizing r with
  | nil => simp [waits]
  | cons buf reads ih =>
    -- Each read is searched on its own.
    rw [List.foldl_cons]
    by_cases found : Text.strstr buf (utf8 "200 OK") = true
    · rw [foldl_writeCard (by simp [Reader.received, waits, found]),
        if_pos ⟨buf, List.mem_cons_self .., found⟩]
    · rw [ih (by simp [Reader.received, waits, found])]
      refine if_congr ?_ rfl rfl
      simp [okText, found]

/-- The reader writes a new key to the card when one of its reads holds the status text. -/
theorem writeCard_afterReply {r : Reader} (waits : r.stage = .recvUidKey) (reads : List Bytes) :
    (afterReply r reads).stage = .writeCard ↔ ∃ buf ∈ reads, Text.strstr buf okText = true := by
  -- The read that fails ends a loop that has found nothing.
  have stage := foldl_recvUidKey waits reads
  split_ifs at stage with found <;> simp [afterReply, Reader.readFailed, stage, found]

/-- What stands behind the status text in the reply to an accepted card, before its body. -/
def okFields (date : HttpDate) : Bytes :=
  [10] ++ utf8 "Content-Type: text/plain" ++ [13, 10] ++ utf8 "Date: " ++ date.text ++ [13, 10] ++
    utf8 "Content-Length: 8" ++ [13, 10, 13]

/-- The bytes of the reply to an accepted card. -/
theorem bytes_writeOK (date : HttpDate) :
    ((writeOK {}).finish).bytes false date =
      utf8 "HTTP/1.1 200 OK" ++ 13 :: (okFields date ++ 10 :: utf8 "IS_OK:OK") := by
  -- The length of the body has one digit.
  have length : utf8 "Content-Length: " ++ decimal 1 (utf8 "IS_OK:OK").length =
      utf8 "Content-Length: 8" := by decide
  have status : utf8 "HTTP/1.1 " ++ utf8 "200 OK" = utf8 "HTTP/1.1 200 OK" := by decide
  have type : utf8 "Content-Type: " ++ utf8 "text/plain" = utf8 "Content-Type: text/plain" := by
    decide
  have reply : (writeOK {}).finish = ⟨.ok, ⟨some "text/plain", none⟩, utf8 "IS_OK:OK"⟩ := rfl
  rw [reply, okFields]
  simp [Reply.bytes, Reply.lines, Status.text, ← length, ← status, ← type]

/-- Behind the first digit of the status text the reply does not hold the text. -/
theorem okText_once (date : HttpDate) :
    ¬ okText <:+: (((writeOK {}).finish).bytes false date).drop 10 := by
  have behind : (utf8 "HTTP/1.1 200 OK" ++
      13 :: (okFields date ++ 10 :: utf8 "IS_OK:OK")).drop 10 =
      utf8 "00 OK" ++ 13 :: (okFields date ++ 10 :: utf8 "IS_OK:OK") := by
    have start : utf8 "HTTP/1.1 200 OK" = utf8 "HTTP/1.1 2" ++ utf8 "00 OK" := by decide
    rw [start, List.append_assoc]
    exact List.drop_left' (by decide)
  have fields : (75 : UInt8) ∉ okFields date := by
    have texts : ∀ text ∈ ["Content-Type: text/plain", "Date: ", "Content-Length: 8"],
        (75 : UInt8) ∉ utf8 text := by decide
    simp [okFields, texts, date_text]
  rw [bytes_writeOK, behind, Text.infix_append_separator (by decide),
    Text.infix_append_separator (by decide)]
  -- The rest of the line is too short, the fields lack a letter and the body a digit.
  intro found
  rcases found with short | lacking | body
  · exact absurd short (by decide)
  · exact Text.not_infix_of_not_mem (by decide) fields lacking
  · exact absurd body (by decide)

/-- The reply to an accepted card holds no zero byte. -/
theorem bytes_writeOK_clean (date : HttpDate) :
    (0 : UInt8) ∉ ((writeOK {}).finish).bytes false date := by
  have dated : (0 : UInt8) ∉ date.text := by
    intro listed
    rcases mem_date_text listed with digit | letter
    · exact absurd digit (by decide)
    · exact absurd letter (by decide)
  have texts : ∀ text ∈ ["HTTP/1.1 200 OK", "Content-Type: text/plain", "Date: ",
      "Content-Length: 8", "IS_OK:OK"], (0 : UInt8) ∉ utf8 text := by decide
  rw [bytes_writeOK]
  simp [okFields, texts, dated]

/-- Reads of the reply to an accepted card find the status text unless a cut falls inside it. -/
theorem found_writeOK {date : HttpDate} {reads : List Bytes}
    (whole : reads.flatten = ((writeOK {}).finish).bytes false date) :
    (∃ buf ∈ reads, Text.strstr buf okText = true) ↔
      ∀ done, done <+: reads → ¬ (9 < done.flatten.length ∧ done.flatten.length < 15) := by
  have clean : ∀ buf ∈ reads, Text.strstr buf okText = true ↔ okText <:+: buf := fun buf listed =>
    Text.strstr_iff_infix fun zero =>
      bytes_writeOK_clean date (whole ▸ List.mem_flatten_of_mem listed zero)
  have length : okText.length = 6 := by decide
  -- The text stands behind the version, and nowhere else.
  have occurs : okText <+: (((writeOK {}).finish).bytes false date).drop 9 := by
    have start : utf8 "HTTP/1.1 200 OK" = utf8 "HTTP/1.1 " ++ okText := by decide
    rw [bytes_writeOK, start, List.append_assoc, List.drop_left' (by decide)]
    exact List.prefix_append _ _
  have first : ¬ okText <:+:
      (((writeOK {}).finish).bytes false date).take (9 + okText.length - 1) := by
    rw [bytes_writeOK, length, List.take_append_of_le_length (by decide)]
    decide
  have once := Text.infix_block_iff (by decide) occurs first (okText_once date) whole
  rw [length] at once
  rw [← once]
  exact exists_congr fun buf => and_congr_right fun listed => clean buf listed

/--
The reader writes the card exactly when the reply is one of success, if the status is another or
no cut falls inside the text of the status.

The buffer is cleared before each read, and each read is searched on its own.
-/
theorem decision_iff (crypto : Crypto) (s : Server) (env : Env) (req : Request)
    (type : req.type = "UID_KEY") (r : Reader) (waits : r.stage = .recvUidKey)
    (reads : List Bytes)
    (whole : reads.flatten =
      ((server crypto).answer s (jsonCall env req)).bytes false env.date) :
    ((afterReply r reads).stage = .writeCard ↔
      ((server crypto).answer s (jsonCall env req)).status = .ok) ↔
    ((server crypto).answer s (jsonCall env req)).status ≠ .ok ∨
      ∀ done, done <+: reads → ¬ (9 < done.flatten.length ∧ done.flatten.length < 15) := by
  rw [writeCard_afterReply waits]
  rw [answer_uidKey crypto s env type] at whole ⊢
  by_cases fits : uidKeyMatches crypto env s req = true
  · rw [if_pos fits] at whole ⊢
    have ok : (writeOK {}).finish.status = .ok := rfl
    simp only [ok, iff_true, ne_eq, not_true_eq_false, false_or]
    exact found_writeOK whole
  · rw [if_neg fits] at whole ⊢
    have refused : (writeNO {} "Invalid One time AES key").finish.status = .badRequest := rfl
    rw [refused]
    -- The reply to a wrong key does not hold the text, so no part of it does.
    refine iff_of_true (iff_of_false ?_ (by simp)) (.inl (by simp))
    intro found
    obtain ⟨buf, listed, found⟩ := found
    have part := Text.infix_of_strstr found (List.infix_of_mem_flatten listed)
    rw [whole] at part
    have status := status_of_found (by decide) (by decide) (by decide) part
    exact absurd status (by decide)

/-- The bytes of the reply to Bob's card when it presents a key. -/
def bobReply (key : Bytes) : Bytes :=
  ((server Crypto.standard).answer (Server.start twoCards) (uidKeyCall quietEnv bob key)).bytes
    false quietEnv.date

/-- Cut far behind its status, the reply to an accepted card is recognised, and no other. -/
theorem decision_apart :
    ((afterReply { Reader.start with stage := .recvUidKey }
        [(bobReply bobKey).take 100, (bobReply bobKey).drop 100]).stage = .writeCard ↔
      ((server Crypto.standard).answer (Server.start twoCards)
        (uidKeyCall quietEnv bob bobKey)).status = .ok) ∧
    ((afterReply { Reader.start with stage := .recvUidKey }
        [(bobReply aliceKey).take 100, (bobReply aliceKey).drop 100]).stage = .writeCard ↔
      ((server Crypto.standard).answer (Server.start twoCards)
        (uidKeyCall quietEnv bob aliceKey)).status = .ok) := by
  constructor
  · refine (decision_iff Crypto.standard (Server.start twoCards) quietEnv
      (uidKeyRequest bob bobKey) rfl _ rfl _ ?_).mpr (.inr fun done initial => ?_)
    · simp [bobReply, uidKeyCall, quietEnv]
    · -- A front part of the reads is empty, or it has a hundred bytes.
      have all : ∀ done ∈ [(bobReply bobKey).take 100, (bobReply bobKey).drop 100].inits,
          ¬ (9 < done.flatten.length ∧ done.flatten.length < 15) := by decide +kernel
      exact all done ((List.mem_inits _ _).mpr initial)
  · refine (decision_iff Crypto.standard (Server.start twoCards) quietEnv
      (uidKeyRequest bob aliceKey) rfl _ rfl _ ?_).mpr (.inl (by decide))
    simp [bobReply, uidKeyCall, quietEnv]

/-- An accepted card is not written when the text of the status arrives in two reads. -/
theorem decision_cut :
    ¬ ∀ (s : Server) (env : Env) (req : Request) (r : Reader) (reads : List Bytes),
      req.type = "UID_KEY" → r.stage = .recvUidKey →
      (∀ buf ∈ reads, 1 ≤ buf.length ∧ buf.length ≤ readLength) →
      reads.flatten =
        ((server Crypto.standard).answer s (jsonCall env req)).bytes false env.date →
      ((afterReply r reads).stage = .writeCard ↔
        ((server Crypto.standard).answer s (jsonCall env req)).status = .ok) := by
  intro independent
  -- The first read ends behind the first two digits of the status.
  have decision := independent (Server.start twoCards) quietEnv (uidKeyRequest bob bobKey)
    { Reader.start with stage := .recvUidKey }
    [(bobReply bobKey).take 11, (bobReply bobKey).drop 11] rfl rfl (by decide) (by decide)
  revert decision
  decide +kernel

end Rfid
