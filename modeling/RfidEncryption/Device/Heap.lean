import RfidEncryption.Device.Contract
import Mathlib.Data.Multiset.OrderedMonoid

/-! Programs that take blocks of memory and give them back. -/

namespace Device

/-- What the commands of an interface do with blocks of memory. -/
structure Allocation (I : Interface) (β : Type) where
  uses : I.Command → Multiset β
  releases : I.Command → Multiset β
  hands : (command : I.Command) → I.Answer command → Multiset β

namespace Allocation

variable {I : Interface} {β : Type} [DecidableEq β] (a : Allocation I β)

/--
Blocks are used and released as long as they are in use.

The state is the blocks in use, one that was handed out twice being there twice.
-/
def contract : Contract I (Multiset β) where
  demand heap c := a.uses c + a.releases c ≤ heap
  step heap c answer := heap - a.releases c + a.hands c answer

section
variable {a} {c : I.Command} {kept : Multiset β}

/-- A command that uses and releases blocks of a part of the heap may be given. -/
theorem demand_of_part (used : a.uses c ≤ kept) (others : Multiset β) :
    a.contract.demand (a.releases c + kept + others) c := by
  -- What is used is kept, so that it is not what is released.
  have part : a.uses c + a.releases c ≤ a.releases c + kept := by
    rw [add_comm]
    exact add_le_add_right used _
  exact part.trans (Multiset.le_add_right _ _)

/-- A command leaves the rest of the heap alone. -/
theorem step_part (answer : I.Answer c) (others : Multiset β) :
    a.contract.step (a.releases c + kept + others) c answer =
      a.hands c answer + kept + others := by
  have left : a.releases c + kept + others - a.releases c = kept + others := by
    rw [add_assoc, add_tsub_cancel_left]
  change a.releases c + kept + others - a.releases c + a.hands c answer = _
  rw [left, add_comm, add_assoc]

end

end Allocation

end Device
