import RfidEncryption.Server.Clients

/-! The block of the card that holds its key, as it is written and as it is read. -/

namespace Rfid

/-- The sixteen bytes of a block of the card. -/
abbrev CardBlock := Vector UInt8 16

/-- The block `card_write_on_block` hands to the driver: a zero byte, and the key behind it. -/
def block4 (data : CardKey) : CardBlock := (#v[(0 : UInt8)] ++ data : Vector UInt8 (1 + 15))

/-- The key `nfc_task` takes from the block the driver returns: its first fifteen bytes. -/
def cardKeyOf (cardKey1 : CardBlock) : CardKey := Vector.ofFn fun j => cardKey1[j.castSucc]

/-- The JSON of a card and the key that was written to it. -/
def newCardKeyRequest (uid key : Bytes) : Request :=
  { type := "New_Card_Key", uid := bytesToHexString uid, newOtAK := bytesToHexString key }

/-- A key read back starts with the zero byte, and the rest is the key without its last byte. -/
theorem cardKeyOf_block4 (r : CardKey) {j : Nat} (inside : j < 15) :
    (cardKeyOf (block4 r))[j] = if j = 0 then 0 else r[j - 1] := by
  -- The byte in front moves every other one by a place.
  simp only [cardKeyOf, block4, Vector.getElem_ofFn, Fin.castSucc_mk, Fin.getElem_fin]
  rw [Vector.getElem_append]
  by_cases first : j = 0
  · simp [first]
  · rw [dif_neg (by omega), if_neg first]

/-- Only the key of zeros is read back as it was written. -/
theorem cardKeyOf_block4_eq (r : CardKey) :
    cardKeyOf (block4 r) = r ↔ r = Vector.replicate 15 0 := by
  constructor
  · intro same
    -- Each byte equals the one before it, and the first one is zero.
    have byte : ∀ j (inside : j < 15), r[j] = 0 := by
      intro j
      induction j with
      | zero =>
        intro inside
        have first := cardKeyOf_block4 r inside
        simpa [same] using first
      | succ j ih =>
        intro inside
        have next := cardKeyOf_block4 r inside
        simpa [same, ih (by omega)] using next
    apply Vector.ext
    intro j inside
    rw [byte j inside, Vector.getElem_replicate]
  · rintro rfl
    apply Vector.ext
    intro j inside
    rw [cardKeyOf_block4 _ inside]
    simp

/--
The key that is read from the card is the one the server was told exactly when it is all zeros.

The writer puts a zero byte before the key, and the reader takes the first fifteen bytes.
-/
theorem card_layout_iff (uid : Uid) (r : CardKey) :
    (hexBytes (uidKeyRequest uid.toList (cardKeyOf (block4 r)).toList).otAK =
        hexBytes (newCardKeyRequest uid.toList r.toList).newOtAK ∧
      ∀ (crypto : Crypto) (told asked : Env) (cards : Cards) (row : Card),
        selectCard cards uid.toList = some row → told.execFails = false → asked.scanFails = false →
        (databaseChecker crypto asked
          (databaseUpdater told cards uid.toList
            (hexBytes (newCardKeyRequest uid.toList r.toList).newOtAK) "New_Card_Key").1
          uid.toList (hexBytes (uidKeyRequest uid.toList (cardKeyOf (block4 r)).toList).otAK)
          "key_this_time").1 = 1) ↔
    r = Vector.replicate 15 0 := by
  have presented : hexBytes (uidKeyRequest uid.toList (cardKeyOf (block4 r)).toList).otAK =
      (cardKeyOf (block4 r)).toList := by
    simp only [uidKeyRequest, hexBytes_bytesToHexString]
  have told : hexBytes (newCardKeyRequest uid.toList r.toList).newOtAK = r.toList := by
    simp only [newCardKeyRequest, hexBytes_bytesToHexString]
  rw [presented, told, Vector.toList_inj, cardKeyOf_block4_eq, and_iff_left_iff_imp]
  -- A key that comes back is the one that was stored.
  intro zeros crypto env env' cards row found works steady
  have back := (cardKeyOf_block4_eq r).mpr zeros
  rw [databaseChecker_key, back]
  have rotated : selectCard (databaseUpdater env cards uid.toList r.toList "New_Card_Key").1
      uid.toList = some (row.rotate r.toList) := by
    simp [databaseUpdater, works, selectCard_update, found, selectCard_uid found]
  refine ⟨row.rotate r.toList, rotated, ?_⟩
  simp [steady, Card.rotate]

/-- A key that starts with a one comes back behind a zero. -/
theorem card_layout_shifted :
    ¬ ∀ (uid : Uid) (r : CardKey),
      hexBytes (uidKeyRequest uid.toList (cardKeyOf (block4 r)).toList).otAK =
          hexBytes (newCardKeyRequest uid.toList r.toList).newOtAK ∧
        ∀ (crypto : Crypto) (told asked : Env) (cards : Cards) (row : Card),
          selectCard cards uid.toList = some row → told.execFails = false →
          asked.scanFails = false →
          (databaseChecker crypto asked
            (databaseUpdater told cards uid.toList
              (hexBytes (newCardKeyRequest uid.toList r.toList).newOtAK) "New_Card_Key").1
            uid.toList (hexBytes (uidKeyRequest uid.toList (cardKeyOf (block4 r)).toList).otAK)
            "key_this_time").1 = 1 := by
  intro returned
  -- The server would compare the two texts byte for byte.
  exact absurd (returned bobUid #v[1, 2, 3, 4, 5, 6, 7, 8, 9, 10, 11, 12, 13, 14, 15]).1
    (by decide)

end Rfid
