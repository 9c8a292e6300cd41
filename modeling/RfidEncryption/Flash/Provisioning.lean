import RfidEncryption.Flash.Partition

/-! Whether a key that could not be decoded or encrypted replaces the one in the flash. -/

namespace Rfid

open Memory

section
variable (lib : Mbedtls) (nul : UInt8) (calls : WriteCalls) (text : Bytes) (flash : Partition)

/-- What the decoder leaves in the buffer of `flash_writer`, and its length. -/
def decodedKey : Nat × Ram UInt8 :=
  decodePemBase64ToDer calls (Text.cString text) (Ram.fresh calls.heap) partitionSize

/-- What `flash_writer` takes for the encrypted key, and its length. -/
def encryptedKey : Nat × Ram UInt8 :=
  stringWithAES lib nul calls.derivation (decodedKey calls text).2 (decodedKey calls text).1 false

/-- Whether the decoder or the derivation of the key reports an error. -/
def ProvisioningFails : Prop :=
  (calls.base64 partitionSize (Text.cString text)).ret ≠ 0 ∨ calls.derivation.ret ≠ 0

/-- A partition that is not found is left alone. -/
theorem flashWriter_absent (absent : calls.found = false) :
    flashWriter lib nul calls text flash = flash := by
  simp [flashWriter, absent]

/-- An erase that fails is the last thing that happens to the partition. -/
theorem flashWriter_unerased (found : calls.found = true) (failed : calls.eraseRet ≠ 0) :
    flashWriter lib nul calls text flash =
      { flash with content := calls.eraseLeaves flash.content } := by
  simp [flashWriter, found, espPartitionEraseRange, failed]

/-- Behind an erase the encrypted key is written, whatever it is. -/
theorem flashWriter_erased (found : calls.found = true) (erase : calls.eraseRet = 0) :
    flashWriter lib nul calls text flash =
      (espFlashWrite calls
        ((encryptedKey lib nul calls text).2.window 0 (encryptedKey lib nul calls text).1)
        ⟨erased 0 partitionSize flash.content, .erased 0 partitionSize :: flash.changes⟩).2 := by
  simp [flashWriter, found, espPartitionEraseRange, erase, encryptedKey, decodedKey]

/-- A partition that was found and erased is one that was changed. -/
theorem flashWriter_changes (found : calls.found = true) (erase : calls.eraseRet = 0) :
    (flashWriter lib nul calls text flash).changes ≠ flash.changes := by
  rw [flashWriter_erased lib nul calls text flash found erase]
  -- The erase is on the list, with the write or without it.
  intro same
  have longer := congrArg List.length same
  unfold espFlashWrite at longer
  split_ifs at longer <;> simp only [List.length_cons] at longer <;> omega

/--
A failed provisioning leaves the key in the flash alone exactly when the partition is not found,
nothing has failed, or the erase fails as well and leaves the partition as it was.

The decoder reports its error to nobody, and the length of zero after a failed derivation is
written like any other.
-/
theorem failed_provisioning_iff :
    (ProvisioningFails calls text →
      (∀ i < partitionSize, (flashWriter lib nul calls text flash).content i = flash.content i) ∧
        (flashWriter lib nul calls text flash).changes = flash.changes) ↔
    calls.found = false ∨ ¬ ProvisioningFails calls text ∨
      calls.eraseRet ≠ 0 ∧
        ∀ i < partitionSize, calls.eraseLeaves flash.content i = flash.content i := by
  by_cases found : calls.found = false
  · rw [flashWriter_absent lib nul calls text flash found]
    simp [found]
  rw [or_iff_right found]
  rw [Bool.not_eq_false] at found
  by_cases fails : ProvisioningFails calls text
  · rw [or_iff_right (not_not_intro fails), imp_iff_right fails]
    by_cases erase : calls.eraseRet = 0
    · -- An erase that succeeds shows, whatever is written after it.
      have changed := flashWriter_changes lib nul calls text flash found erase
      exact iff_of_false (fun kept => changed kept.2) fun kept => kept.1 erase
    · rw [flashWriter_unerased lib nul calls text flash found erase]
      simp [erase]
  · simp [fails]

end

/-- The calls of a `flash_writer` whose text is no base64, with a flash that works. -/
def garbledCalls : WriteCalls where
  found := true
  base64 capacity _ := ⟨-44, [], capacity⟩
  derivation := ⟨0, Vector.replicate 32 7⟩
  heap _ := 0
  eraseRet := 0
  eraseLeaves := id
  writeRet := 0
  writeLeaves := id

/-- A text that cannot be decoded replaces the key in the flash. -/
theorem provisioning_overwrites :
    ¬ ∀ (lib : Mbedtls) (nul : UInt8) (calls : WriteCalls) (text : Bytes) (flash : Partition),
      ProvisioningFails calls text →
      (∀ i < partitionSize, (flashWriter lib nul calls text flash).content i = flash.content i) ∧
        (flashWriter lib nul calls text flash).changes = flash.changes := by
  intro kept
  -- The decoder objects to the first letter, and the flash is erased all the same.
  have unchanged := kept .standard 0 garbledCalls (utf8 "Pem No /n head and tail")
    ⟨fun _ => 5, []⟩ (.inl (by decide))
  exact flashWriter_changes .standard 0 garbledCalls _ _ rfl rfl unchanged.2

end Rfid
