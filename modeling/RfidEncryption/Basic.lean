import RfidEncryption.Text.Hex

/-! The byte strings, identifiers and keys both programs exchange. -/

namespace Rfid

/-- A byte string: a Go byte slice or string, or the used part of a C buffer. -/
abbrev Bytes := List UInt8

/-- The bytes of a text, as `[]byte(text)` and a C literal hold them. -/
def utf8 (text : String) : Bytes := text.toUTF8.data.toList

/-- The identifier of a card as `nfc_task` keeps it, seven bytes wide. -/
abbrev Uid := Vector UInt8 7

/-- The one-time key of a card, fifteen bytes wide. -/
abbrev CardKey := Vector UInt8 15

/-- `bytes_to_hex_string`: every byte printed with `%02X`. -/
def bytesToHexString (bytes : Bytes) : Bytes := Text.hexEncode bytes

/-- A decimal number of at least the given width, filled with zeros from the left. -/
def decimal (width number : Nat) : Bytes :=
  ((Nat.toDigits 10 number).map Char.toUInt8).leftpad width 48

/-- A printed number is at least as long as the width asked for. -/
theorem decimal_length (width number : Nat) : width ≤ (decimal width number).length := by
  -- The fill makes up whatever the digits leave open.
  simp only [decimal, List.length_leftpad]
  exact Nat.le_max_left ..

end Rfid
