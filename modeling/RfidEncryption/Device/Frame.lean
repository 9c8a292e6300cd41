import Mathlib.Data.List.Basic
import Mathlib.Data.UInt

/-! Frames with a length and a checksum, and the payloads that are read from them. -/

namespace Device

namespace Frame

/-- The frame of a payload, which starts with the direction it goes in. -/
def encode (payload : List UInt8) : List UInt8 :=
  [0, 0, 255, UInt8.ofNat payload.length, -UInt8.ofNat payload.length] ++ payload ++
    [-payload.sum, 0]

/-- The payload of a frame whose length and bytes agree with their checksums. -/
def decode : List UInt8 → Option (List UInt8)
  | 0 :: 0 :: 255 :: len :: lcs :: rest =>
    if len ≠ 0 ∧ len + lcs = 0 ∧
        rest.drop len.toNat = [-(rest.take len.toNat).sum, 0] then some (rest.take len.toNat)
    else none
  | _ => none

/-- The frame by which a command is confirmed, and which carries no payload. -/
def ack : List UInt8 := [0, 0, 255, 0, 255, 0]

@[simp] theorem encode_length (payload : List UInt8) :
    (encode payload).length = payload.length + 7 := by
  simp [encode]

/-- A frame is accepted exactly when it is that of a payload whose length fits a byte. -/
theorem decode_eq_some_iff {bytes payload : List UInt8} :
    decode bytes = some payload ↔
      payload ≠ [] ∧ payload.length < 256 ∧ bytes = encode payload := by
  constructor
  · intro accepted
    unfold decode at accepted
    split at accepted
    · rename_i len lcs rest
      split_ifs at accepted with valid
      · obtain ⟨nonzero, lengths, ends⟩ := valid
        obtain rfl := Option.some.inj accepted
        -- Two bytes follow as many as the length says.
        have long := congrArg List.length ends
        simp only [List.length_drop, List.length_cons, List.length_nil] at long
        have size := UInt8.toNat_lt len
        have taken : (rest.take len.toNat).length = len.toNat := by
          rw [List.length_take]
          omega
        have positive : len.toNat ≠ 0 := by
          rw [← UInt8.toNat_zero, ne_eq, UInt8.toNat_inj]
          exact nonzero
        refine ⟨?_, by omega, ?_⟩
        · intro empty
          rw [empty, List.length_nil] at taken
          omega
        · have other : lcs = -len := by
            have shifted : len + lcs + -len = lcs := by grind
            rw [← shifted, lengths, UInt8.zero_add]
          rw [encode, taken, UInt8.ofNat_toNat, other, List.append_assoc, ← ends,
            List.take_append_drop]
          rfl
    · exact absurd accepted (by simp)
  · rintro ⟨nonempty, fits, rfl⟩
    have positive := List.length_pos_iff.mpr nonempty
    have len : (UInt8.ofNat payload.length).toNat = payload.length := UInt8.toNat_ofNat_of_lt' fits
    have nonzero : UInt8.ofNat payload.length ≠ 0 := by
      intro zero
      rw [zero] at len
      simp at len
      omega
    -- The payload is as long as its length says, and the checksum comes behind it.
    have front : (payload ++ [-payload.sum, 0]).take payload.length = payload := by simp
    have back : (payload ++ [-payload.sum, 0]).drop payload.length = [-payload.sum, 0] := by simp
    have frame : encode payload = 0 :: 0 :: 255 :: UInt8.ofNat payload.length ::
        -UInt8.ofNat payload.length :: (payload ++ [-payload.sum, 0]) := by
      simp [encode]
    rw [frame, decode, len, front, back]
    simp [nonzero]

end Frame

end Device
