import RfidEncryption.Basic
import RfidEncryption.Crypto.Aes
import RfidEncryption.Crypto.Pkcs7
import RfidEncryption.Memory.Ram

/-! The encryption of what the flash stores: padding, blocks and the key they are encrypted with. -/

namespace Rfid

open Memory

/-- A key of `AES_KEY_SIZE` bytes. -/
abbrev AesKey := Vector UInt8 32

/-- A block of AES. -/
abbrev Block := Vector UInt8 16

/-- The AES functions of the library, whose key schedules can be refused. -/
structure Mbedtls where
  /-- `mbedtls_aes_setkey_enc` -/
  setkeyEnc : AesKey → Int
  /-- `mbedtls_aes_setkey_dec` -/
  setkeyDec : AesKey → Int
  /-- `mbedtls_aes_crypt_ecb` with `MBEDTLS_AES_ENCRYPT` -/
  encryptEcb : AesKey → Block → Block
  /-- `mbedtls_aes_crypt_ecb` with `MBEDTLS_AES_DECRYPT` -/
  decryptEcb : AesKey → Block → Block

/-- The functions of the standard, which accept every key. -/
def Mbedtls.standard : Mbedtls where
  setkeyEnc _ := 0
  setkeyDec _ := 0
  encryptEcb := Aes.encrypt
  decryptEcb := Aes.decrypt

/-- What one call of `mbedtls_pkcs5_pbkdf2_hmac_ext` returns, and the key it leaves behind. -/
structure Derivation where
  ret : Int
  derivedKey : AesKey

/-- The number of values of `size_t`, which has 32 bits on the chip. -/
def sizeRange : Nat := 4294967296

/-- The size of the largest object, whose end is still a pointer difference away from its start. -/
def objectLimit : Nat := 2147483647

/-- A difference of two values of `size_t`, which wraps below zero. -/
def sizeSub (a b : Nat) : Nat := (a + sizeRange - b) % sizeRange

/-- `AES_encrypter`, which leaves the data alone when the key is refused. -/
def aesEncrypter (lib : Mbedtls) (aesKey : AesKey) (data : Block) : Block :=
  if lib.setkeyEnc aesKey ≠ 0 then data else lib.encryptEcb aesKey data

/-- `AES_decrypter`, which leaves the data alone when the key is refused. -/
def aesDecrypter (lib : Mbedtls) (aesKey : AesKey) (data : Block) : Block :=
  if lib.setkeyDec aesKey ≠ 0 then data else lib.decryptEcb aesKey data

/-- `HMAC_derive_AES_for_RSA_privateKey`: the result of the derivation, and the key. -/
def hmacDeriveAESForRSAPrivateKey (derivation : Derivation) : Int × AesKey :=
  -- The test of the key size cannot fail, and its result would be overwritten.
  (derivation.ret, derivation.derivedKey)

/-- `pad_string_pkcs7` -/
def padStringPkcs7 (inputString : Ram UInt8) (length : Nat) : Nat × Ram UInt8 :=
  let paddingSize := 16 - length % 16
  let targetLength := (length + paddingSize) % sizeRange
  -- Whole blocks are taken to need no padding.
  if paddingSize = 16 then (length, inputString)
  else
    -- The loop stores nothing when the target has wrapped.
    let count := targetLength - length
    (length + count,
      inputString.stores length (List.replicate count (UInt8.ofNat paddingSize)))

/-- `depad_string_pkcs7`, where `nul` is what the address of a literal leaves in one byte. -/
def depadStringPkcs7 (nul : UInt8) (inputString : Ram UInt8) (length : Nat) : Nat × Ram UInt8 :=
  -- Either error is only logged.
  if length % 16 ≠ 0 then (length, inputString)
  else
    let (paddingLength, inputString) := inputString.load (sizeSub length 1)
    -- A padding of no byte and one of seventeen pass.
    if 17 < paddingLength then (length, inputString)
    else
      let length := sizeSub length paddingLength.toNat
      (length, inputString.store length nul)

/-- `string_with_AES`, which encrypts unless `mode` is set. -/
def stringWithAES (lib : Mbedtls) (nul : UInt8) (derivation : Derivation)
    (inputString : Ram UInt8) (length : Nat) (mode : Bool) : Nat × Ram UInt8 :=
  let (ret, aesKey) := hmacDeriveAESForRSAPrivateKey derivation
  if ret ≠ 0 then (0, inputString)
  else
    let (length, inputString) :=
      if mode then (length, inputString) else padStringPkcs7 inputString length
    -- What is left behind the last whole block stays as it is.
    let inputString :=
      inputString.mapBlocks (if mode then aesDecrypter lib aesKey else aesEncrypter lib aesKey)
        (length / 16)
    if mode then depadStringPkcs7 nul inputString length else (length, inputString)

/-- The functions of the standard are inverse to each other. -/
@[simp] theorem aesDecrypter_aesEncrypter (aesKey : AesKey) (data : Block) :
    aesDecrypter .standard aesKey (aesEncrypter .standard aesKey data) = data := by
  simp [aesDecrypter, aesEncrypter, Mbedtls.standard]

/-- A difference that does not wrap. -/
theorem sizeSub_of_le {a b : Nat} (small : a < sizeRange) (le : b ≤ a) : sizeSub a b = a - b := by
  simp only [sizeSub, sizeRange] at small ⊢
  omega

/-- A difference that wraps. -/
theorem sizeSub_of_lt {a b : Nat} (lt : a < b) :
    sizeSub a b = a + sizeRange - b := by
  simp only [sizeSub, sizeRange]
  omega

section
variable (lib : Mbedtls) (nul : UInt8) (derivation : Derivation) (buffer : Ram UInt8)
  {length : Nat}

/-- Whole blocks are not padded. -/
theorem padStringPkcs7_whole (whole : length % 16 = 0) :
    padStringPkcs7 buffer length = (length, buffer) := by
  simp [padStringPkcs7, whole]

/-- A last block that is not full is filled as PKCS#7 says. -/
theorem padStringPkcs7_part (part : length % 16 ≠ 0) (room : length + 16 ≤ sizeRange) :
    padStringPkcs7 buffer length =
      (length + Pkcs7.fill 16 length,
        buffer.stores length
          (List.replicate (Pkcs7.fill 16 length) (UInt8.ofNat (Pkcs7.fill 16 length)))) := by
  have remainder := Nat.mod_lt length (y := 16) (by decide)
  -- The padding is less than a block, and its end does not wrap.
  have less : 16 - length % 16 ≠ 16 := by omega
  have target : (length + (16 - length % 16)) % sizeRange = length + (16 - length % 16) :=
    Nat.mod_eq_of_lt (by omega)
  simp only [padStringPkcs7, less, if_false, target, Nat.add_sub_cancel_left, Pkcs7.fill]

/-- A length that is not one of whole blocks is handed back. -/
theorem depadStringPkcs7_part (part : length % 16 ≠ 0) :
    depadStringPkcs7 nul buffer length = (length, buffer) := by
  simp [depadStringPkcs7, part]

/-- A last byte above seventeen is taken for no padding. -/
theorem depadStringPkcs7_kept (whole : length % 16 = 0)
    (large : 17 < buffer.cell (sizeSub length 1)) :
    depadStringPkcs7 nul buffer length = (length, (buffer.load (sizeSub length 1)).2) := by
  simp [depadStringPkcs7, whole, large]

/-- A last byte of at most seventeen is taken for the length of the padding. -/
theorem depadStringPkcs7_cut (whole : length % 16 = 0)
    (small : ¬ 17 < buffer.cell (sizeSub length 1)) :
    depadStringPkcs7 nul buffer length =
      (sizeSub length (buffer.cell (sizeSub length 1)).toNat,
        (buffer.load (sizeSub length 1)).2.store
          (sizeSub length (buffer.cell (sizeSub length 1)).toNat) nul) := by
  simp [depadStringPkcs7, whole, small]

/-- Nothing happens to a text when no key can be derived. -/
theorem stringWithAES_failed (failed : derivation.ret ≠ 0) (mode : Bool) :
    stringWithAES lib nul derivation buffer length mode = (0, buffer) := by
  simp [stringWithAES, hmacDeriveAESForRSAPrivateKey, failed]

/-- A text is padded, and then its blocks are encrypted. -/
theorem stringWithAES_encrypt (derived : derivation.ret = 0) :
    stringWithAES lib nul derivation buffer length false =
      ((padStringPkcs7 buffer length).1,
        (padStringPkcs7 buffer length).2.mapBlocks (aesEncrypter lib derivation.derivedKey)
          ((padStringPkcs7 buffer length).1 / 16)) := by
  simp [stringWithAES, hmacDeriveAESForRSAPrivateKey, derived]

/-- The blocks of a text are decrypted, and then the padding is cut off. -/
theorem stringWithAES_decrypt (derived : derivation.ret = 0) :
    stringWithAES lib nul derivation buffer length true =
      depadStringPkcs7 nul
        (buffer.mapBlocks (aesDecrypter lib derivation.derivedKey) (length / 16)) length := by
  simp [stringWithAES, hmacDeriveAESForRSAPrivateKey, derived]

end

/-- The last byte of the block that ends at a place, decrypted. -/
def lastDecrypted (lib : Mbedtls) (aesKey : AesKey) (buffer : Ram UInt8) (length : Nat) : UInt8 :=
  (aesDecrypter lib aesKey (buffer.block (length - 16) 16)).get 15

section
variable (lib : Mbedtls) (nul : UInt8) {derivation : Derivation} {buffer : Ram UInt8}
  {length : Nat}

variable (buffer) in
/-- Decrypting whole blocks ends with the last byte of the last one. -/
theorem mapBlocks_lastDecrypted (aesKey : AesKey) (positive : 0 < length)
    (whole : length % 16 = 0) :
    (buffer.mapBlocks (aesDecrypter lib aesKey) (length / 16)).cell (length - 1) =
      lastDecrypted lib aesKey buffer length := by
  -- The last block starts sixteen bytes before the end.
  have within : length / 16 - 1 < length / 16 := by omega
  have start : (length / 16 - 1) * 16 = length - 16 := by omega
  have last : length - 16 + 15 = length - 1 := by omega
  have block := @Ram.mapBlocks_block _ buffer 16 (length / 16) (aesDecrypter lib aesKey) _ within
  rw [start] at block
  rw [lastDecrypted, ← block, ← last]
  exact (Ram.block_getElem (show 15 < 16 by decide)).symm

/-- Whole blocks whose last byte is no padding are decrypted and handed back. -/
theorem stringWithAES_kept (derived : derivation.ret = 0) (positive : 0 < length)
    (small : length < sizeRange) (whole : length % 16 = 0)
    (large : 17 < lastDecrypted lib derivation.derivedKey buffer length) :
    stringWithAES lib nul derivation buffer length true =
      (length, ((buffer.mapBlocks (aesDecrypter lib derivation.derivedKey) (length / 16)).load
        (length - 1)).2) := by
  -- The byte before the end is the one that is read.
  have before : sizeSub length 1 = length - 1 := sizeSub_of_le small positive
  have last := mapBlocks_lastDecrypted lib buffer derivation.derivedKey positive whole
  rw [← before] at last ⊢
  rw [stringWithAES_decrypt lib nul derivation buffer derived,
    depadStringPkcs7_kept nul _ whole (by rwa [last])]

/-- Whole blocks are decrypted and cut off by what their last byte says. -/
theorem stringWithAES_cut (derived : derivation.ret = 0) (positive : 0 < length)
    (small : length < sizeRange) (whole : length % 16 = 0)
    (short : ¬ 17 < lastDecrypted lib derivation.derivedKey buffer length) :
    stringWithAES lib nul derivation buffer length true =
      (sizeSub length (lastDecrypted lib derivation.derivedKey buffer length).toNat,
        ((buffer.mapBlocks (aesDecrypter lib derivation.derivedKey) (length / 16)).load
          (length - 1)).2.store
            (sizeSub length (lastDecrypted lib derivation.derivedKey buffer length).toNat)
            nul) := by
  -- As above, with a zero stored at the new length.
  have before : sizeSub length 1 = length - 1 := sizeSub_of_le small positive
  have last := mapBlocks_lastDecrypted lib buffer derivation.derivedKey positive whole
  rw [← before] at last ⊢
  rw [stringWithAES_decrypt lib nul derivation buffer derived,
    depadStringPkcs7_cut nul _ whole (by rwa [last]), last]

/-- The length of a decrypted text is the one given, less what its last byte says. -/
theorem stringWithAES_length (derived : derivation.ret = 0) (positive : 0 < length)
    (small : length < sizeRange) :
    (stringWithAES lib nul derivation buffer length true).1 =
      if length % 16 ≠ 0 ∨ 17 < lastDecrypted lib derivation.derivedKey buffer length then length
      else sizeSub length (lastDecrypted lib derivation.derivedKey buffer length).toNat := by
  by_cases part : length % 16 ≠ 0
  · rw [stringWithAES_decrypt lib nul derivation buffer derived, depadStringPkcs7_part nul _ part,
      if_pos (.inl part)]
  · rw [not_not] at part
    by_cases large : 17 < lastDecrypted lib derivation.derivedKey buffer length
    · rw [stringWithAES_kept lib nul derived positive small part large, if_pos (.inr large)]
    · rw [stringWithAES_cut lib nul derived positive small part large,
        if_neg (by simp [part, large])]

/-- Decrypting touches nothing behind the end, unless the padding is longer than the text. -/
theorem bound_of_mem_stringWithAES (positive : 0 < length) (small : length < sizeRange)
    (fits : derivation.ret = 0 → length % 16 = 0 →
      lastDecrypted lib derivation.derivedKey buffer length ≤ 17 →
        (lastDecrypted lib derivation.derivedKey buffer length).toNat ≤ length)
    {i : Nat} (touched : i ∈ (stringWithAES lib nul derivation buffer length true).2.touched) :
    i ∈ buffer.touched ∨ i ≤ length := by
  by_cases derived : derivation.ret = 0
  · by_cases part : length % 16 ≠ 0
    · -- Only the blocks are touched.
      rw [stringWithAES_decrypt lib nul derivation buffer derived,
        depadStringPkcs7_part nul _ part, Ram.mem_mapBlocks_touched] at touched
      exact touched.imp_right (by omega)
    · rw [not_not] at part
      by_cases large : 17 < lastDecrypted lib derivation.derivedKey buffer length
      · -- The last byte is read once more.
        rw [stringWithAES_kept lib nul derived positive small part large] at touched
        simp only [Ram.load_touched, List.mem_cons, Ram.mem_mapBlocks_touched] at touched
        rcases touched with rfl | buffered | block
        · exact .inr (by omega)
        · exact .inl buffered
        · exact .inr (by omega)
      · -- A zero is stored where the padding starts.
        have cut := sizeSub_of_le small (fits derived part (UInt8.not_lt.mp large))
        rw [stringWithAES_cut lib nul derived positive small part large, cut] at touched
        simp only [Ram.load_touched, Ram.store_touched, List.mem_cons,
          Ram.mem_mapBlocks_touched] at touched
        rcases touched with rfl | rfl | buffered | block
        · exact .inr (by omega)
        · exact .inr (by omega)
        · exact .inl buffered
        · exact .inr (by omega)
  · rw [stringWithAES_failed lib nul derivation buffer derived] at touched
    exact .inl touched

/-- A padding that is longer than the text is cut off below the start of the buffer. -/
theorem mem_stringWithAES_of_long (derived : derivation.ret = 0) (positive : 0 < length)
    (small : length < sizeRange) (whole : length % 16 = 0)
    (short : ¬ 17 < lastDecrypted lib derivation.derivedKey buffer length) :
    sizeSub length (lastDecrypted lib derivation.derivedKey buffer length).toNat ∈
      (stringWithAES lib nul derivation buffer length true).2.touched := by
  -- The zero is stored at the new length, whatever that is.
  rw [stringWithAES_cut lib nul derived positive small whole short]
  simp

/-- What was touched before the text is decrypted stays touched. -/
theorem mem_stringWithAES_of_mem {i : Nat} (touched : i ∈ buffer.touched) :
    i ∈ (stringWithAES lib nul derivation buffer length true).2.touched := by
  by_cases derived : derivation.ret = 0
  · have mapped : i ∈
        (buffer.mapBlocks (aesDecrypter lib derivation.derivedKey) (length / 16)).touched :=
      Ram.mem_mapBlocks_touched.mpr (.inl touched)
    rw [stringWithAES_decrypt lib nul derivation buffer derived]
    -- Each way through the unpadding only adds to what was touched.
    unfold depadStringPkcs7
    split_ifs
    · exact mapped
    · dsimp only
      split_ifs <;> simp [mapped]
  · rwa [stringWithAES_failed lib nul derivation buffer derived]

end

end Rfid
