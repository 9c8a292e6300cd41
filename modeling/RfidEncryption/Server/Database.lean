import RfidEncryption.Server.Totp
import RfidEncryption.Server.Http
import RfidEncryption.Text.Search

/-! The cards table, and the three operations the server performs on it. -/

namespace Rfid

/-- One row of the `cards` table, with the secret as the table gives it back. -/
structure Card where
  uid : Bytes
  hashedPassword : Bytes
  keyThisTime : Bytes
  keyLastTime : Bytes
  totpSecretKey : String
  deriving DecidableEq, Repr

/-- The `cards` table, its rows in the order they were inserted. -/
abbrev Cards := List Card

/-- What a request finds outside the server's own state. -/
structure Env where
  /-- `time.Now().Unix()` -/
  now : Int
  /-- The secret `generateUniqueSecretKey` returns, which is shown as a QR code. -/
  secret : String
  /-- What is read of a `STRING` column in which SQLite has stored a text as a number. -/
  numberText : String → String
  /-- The date the reply is stamped with. -/
  date : HttpDate
  /-- The files next to the server, by name. -/
  files : String → Option Bytes
  /-- Whether reading the current key fails after the row was found, which is only logged. -/
  scanFails : Bool
  /-- Whether the `UPDATE` statement fails, which the server reports to the client. -/
  execFails : Bool

/-- A text of one or more digits. -/
def isDigits (text : Bytes) : Bool :=
  !text.isEmpty && text.all fun byte => 48 ≤ byte && byte ≤ 57

/--
Whether SQLite reads a text of letters and digits as a number: digits, maybe with an exponent.

Signs, points and blanks are left out, as no base32 text has any.
-/
def looksNumeric (text : Bytes) : Bool :=
  isDigits text ||
    (Text.splitAt 69 text).any fun (digits, exponent) => isDigits digits && isDigits exponent

/--
What `totp_secret_key STRING` gives back of a text.

The type of the column makes SQLite store a number where the text looks like one.
-/
def Env.readBack (env : Env) (text : String) : String :=
  if looksNumeric (utf8 text) then env.numberText text else text

/-- `SELECT * FROM cards WHERE uid = ?`, of which `QueryRow` reads the earliest row. -/
def selectCard (cards : Cards) (uid : Bytes) : Option Card :=
  cards.find? fun card => card.uid = uid

/-- `database_register`: a row for the card, whose key of this time is also that of last time. -/
def databaseRegister (env : Env) (cards : Cards) (uid hashedPassword keyThisTime : Bytes)
    (totpSecretKey : String) : Cards :=
  cards ++ [⟨uid, hashedPassword, keyThisTime, keyThisTime, env.readBack totpSecretKey⟩]

/-- The result of comparing an input with a column: 1 when they are equal, 0 when not. -/
def bytesEqual (input column : Bytes) : Int × Option String :=
  if input = column then (1, none) else (0, none)

/--
`database_checker`: 1 when the data matches, 0 when it does not, -1 when there is no such card.

A database failure that ends the process is not a result.
-/
def databaseChecker (crypto : Crypto) (env : Env) (cards : Cards) (uid input : Bytes)
    (arg : String) : Int × Option String :=
  match selectCard cards uid with
  | none => (-1, none)
  | some card =>
    if arg = "key_this_time" then
      -- A failed `Scan` leaves the variable nil and the comparison goes on with it.
      bytesEqual input (if env.scanFails then [] else card.keyThisTime)
    else if arg = "key_last_time" then bytesEqual input card.keyLastTime
    else if arg = "password" then bytesEqual input card.hashedPassword
    else if arg = "TOTP" then
      bytesEqual input (generateTOTPWithSHA256 crypto card.totpSecretKey 30 env.now)
    else (0, none)

/-- What the `UPDATE` statement does to a row of the card it names. -/
def Card.rotate (card : Card) (input : Bytes) : Card :=
  { card with keyLastTime := card.keyThisTime, keyThisTime := input }

/-- `database_updater`: the new key in every row of the card, with the error it reports. -/
def databaseUpdater (env : Env) (cards : Cards) (uid input : Bytes) (arg : String) :
    Cards × Option String :=
  if arg = "New_Card_Key" then
    -- The statement is the only step whose error reaches the handler.
    if env.execFails then (cards, some "UPDATE failed")
    else (cards.map fun card => if card.uid = uid then card.rotate input else card, none)
  -- Any other argument is reported on the console only.
  else (cards, none)

/-- Comparing gives 1 exactly for equal byte strings. -/
@[simp] theorem bytesEqual_eq_one {input column : Bytes} :
    (bytesEqual input column).1 = 1 ↔ input = column := by
  unfold bytesEqual
  split <;> simp_all

@[simp] theorem bytesEqual_error (input column : Bytes) : (bytesEqual input column).2 = none := by
  unfold bytesEqual
  split <;> rfl

section
variable {crypto : Crypto} {env : Env} {cards : Cards} {uid input : Bytes}

/-- The checker never reports an error beside its result. -/
@[simp] theorem databaseChecker_error (arg : String) :
    (databaseChecker crypto env cards uid input arg).2 = none := by
  -- Every branch that returns at all returns no error.
  unfold databaseChecker
  repeat' split
  all_goals simp

/-- A presented key is accepted when the card's earliest row holds it. -/
theorem databaseChecker_key :
    (databaseChecker crypto env cards uid input "key_this_time").1 = 1 ↔
      ∃ card, selectCard cards uid = some card ∧
        input = if env.scanFails then [] else card.keyThisTime := by
  -- Without a row the result is -1, and with one the comparison decides.
  unfold databaseChecker
  cases selectCard cards uid <;> simp

/-- A password is accepted when its hash is that of the card's earliest row. -/
theorem databaseChecker_password :
    (databaseChecker crypto env cards uid input "password").1 = 1 ↔
      ∃ card, selectCard cards uid = some card ∧ input = card.hashedPassword := by
  -- As for the key, with the column of the hash.
  unfold databaseChecker
  cases selectCard cards uid <;> simp

/-- A one-time password is accepted when it is the one generated for the earliest row. -/
theorem databaseChecker_totp :
    (databaseChecker crypto env cards uid input "TOTP").1 = 1 ↔
      ∃ card, selectCard cards uid = some card ∧
        input = generateTOTPWithSHA256 crypto card.totpSecretKey 30 env.now := by
  -- As for the key, with the password of this interval.
  unfold databaseChecker
  cases selectCard cards uid <;> simp

end

/-- A row found for a card is a row of that card. -/
theorem selectCard_uid {cards : Cards} {uid : Bytes} {card : Card}
    (selected : selectCard cards uid = some card) : card.uid = uid := by
  -- The search tests nothing but the identifier.
  simpa using List.find?_some selected

/-- Registering a card leaves every row that is already found in place. -/
theorem selectCard_register (env : Env) (cards : Cards) (uid named hashed key : Bytes)
    (secret : String) :
    selectCard (databaseRegister env cards named hashed key secret) uid =
      (selectCard cards uid).or
        (if named = uid then some ⟨named, hashed, key, key, env.readBack secret⟩ else none) := by
  -- The new row stands behind all others.
  simp only [selectCard, databaseRegister, List.find?_append, List.find?_singleton]
  simp

/-- Updating keys keeps every row's card, so the same row is found, with its key replaced. -/
theorem selectCard_update (cards : Cards) (uid named input : Bytes) :
    selectCard (cards.map fun card => if card.uid = named then card.rotate input else card) uid =
      (selectCard cards uid).map fun card =>
        if card.uid = named then card.rotate input else card := by
  -- The search compares identifiers only, and the update does not touch them.
  have same : ∀ card : Card,
      (if card.uid = named then card.rotate input else card).uid = card.uid := by
    intro card
    split <;> rfl
  simp only [selectCard, List.find?_map, Function.comp_def, same]

end Rfid
