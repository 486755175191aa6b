import ArmControl.Error

/-!
# The operation slot

A session serves one operation at a time.  Its `Slot` holds the operation in progress: a claim takes
the free slot and is refused, without any effect, while another operation holds it.
-/

namespace ArmControl

/-- The operation in progress, if any. -/
abbrev Slot := Option Operation

namespace Slot

/-- Nothing is in progress. -/
def free : Slot := none

/-- Takes the slot for an operation; the empty operation cannot be claimed. -/
def claim (wanted : Option Operation) (slot : Slot) : Except SessionError Slot :=
  match wanted, slot with
  | none, _ => .error (.conflict .nothingToClaim)
  | some op, none => .ok (some op)
  | some op, some holder => .error (.conflict (.busy op holder))

/-- Frees the slot, and says whether it was taken. -/
def release (slot : Slot) : Bool × Slot := (slot.isSome, free)

end Slot
end ArmControl
