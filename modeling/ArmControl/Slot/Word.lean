import ArmControl.Slot

/-!
# The slot as a word

The clients of a session share its slot as one word of 32 bits, which each of them reads and writes
in single atomic steps.  The lowest byte of the word holds the kind of the operation in progress,
the two bytes above it the modes of a control operation.  `Slot.unpack` reads back what `Slot.pack`
wrote, whatever the operation is, so a `Cell` that holds a packed slot is claimed and released as
the slot itself is (`Cell.claim_pack`, `Cell.release_eq`).
-/

namespace ArmControl.Slot

/-! ### Words -/

/-- The kinds of operation, as the lowest byte of the word says them. -/
def kindNone : UInt32 := 0

def kindReading : UInt32 := 1

def kindControlling : UInt32 := 2

/-- The word of a control operation: above the kind, a lane of eight bits for each mode. -/
def controlWord (controller motion : UInt8) : UInt32 :=
  kindControlling ||| controller.toUInt32 <<< 8 ||| motion.toUInt32 <<< 16

/-- The word that stands for an operation in progress. -/
def pack : Slot → UInt32
  | none => kindNone
  | some .reading => kindReading
  | some (.controlling controller motion) => controlWord (Coded.code controller) (Coded.code motion)

/-- The operation that a word stands for.  An unknown mode is read as the default one, an unknown
kind as no operation. -/
def unpack (word : UInt32) : Slot :=
  if word &&& 0xFF = kindReading then
    some .reading
  else if word &&& 0xFF = kindControlling then
    some (.controlling ((Coded.ofCode? ControllerMode (word >>> 8).toUInt8).getD default)
      ((Coded.ofCode? MotionMode (word >>> 16).toUInt8).getD default))
  else
    none

section Lanes

variable (controller motion : UInt8)

theorem getLsbD_kindControlling (i : Nat) :
    kindControlling.toBitVec.getLsbD i = decide (i = 1) := by
  show (2#32).getLsbD i = _
  rw [BitVec.getLsbD_ofNat, show 2 = 2 ^ 1 from rfl, Nat.testBit_two_pow]
  grind

theorem getLsbD_controlWord (i : Nat) :
    (controlWord controller motion).toBitVec.getLsbD i =
      (decide (i = 1) || (decide (8 ≤ i) && controller.toBitVec.getLsbD (i - 8)) ||
        (decide (16 ≤ i) && motion.toBitVec.getLsbD (i - 16))) := by
  have hcontroller (h : 8 ≤ i - 8) : controller.toBitVec.getLsbD (i - 8) = false :=
    BitVec.getLsbD_of_ge _ _ h
  have hmotion (h : 8 ≤ i - 16) : motion.toBitVec.getLsbD (i - 16) = false :=
    BitVec.getLsbD_of_ge _ _ h
  -- a lane ends after eight bits, so the one above it begins with bits of its own
  simp only [controlWord, UInt32.toBitVec_or, UInt32.toBitVec_shiftLeft, UInt8.toBitVec_toUInt32,
    UInt32.toBitVec_ofNat, BitVec.ofNat_eq_ofNat, BitVec.reduceMod, BitVec.shiftLeft_eq',
    BitVec.toNat_ofNat, Nat.reducePow, Nat.reduceMod, BitVec.getLsbD_or,
    BitVec.getLsbD_shiftLeft, BitVec.getLsbD_setWidth, getLsbD_kindControlling]
  grind

theorem controlWord_kind : controlWord controller motion &&& 0xFF = kindControlling := by
  apply UInt32.eq_of_toBitVec_eq
  apply BitVec.eq_of_getLsbD_eq
  intro i hi
  have hmask : (255#32).getLsbD i = decide (i < 8) := by
    rw [BitVec.getLsbD_ofNat, show 255 = 2 ^ 8 - 1 from rfl, Nat.testBit_two_pow_sub_one]
    grind
  by_cases hlow : i < 8
  · have hcontroller : ¬ 8 ≤ i := by omega
    have hmotion : ¬ 16 ≤ i := by omega
    simp [getLsbD_controlWord, getLsbD_kindControlling, hmask, hlow, hcontroller, hmotion]
  · have hkind : i ≠ 1 := by omega
    simp [getLsbD_controlWord, getLsbD_kindControlling, hmask, hlow, hkind]

theorem controlWord_controller : (controlWord controller motion >>> 8).toUInt8 = controller := by
  apply UInt8.eq_of_toBitVec_eq
  apply BitVec.eq_of_getLsbD_eq
  intro i hi
  have hkind : 8 + i ≠ 1 := by omega
  have hmotion : ¬ 16 ≤ 8 + i := by omega
  simp [getLsbD_controlWord, hi, hkind, hmotion]

theorem controlWord_motion : (controlWord controller motion >>> 16).toUInt8 = motion := by
  apply UInt8.eq_of_toBitVec_eq
  apply BitVec.eq_of_getLsbD_eq
  intro i hi
  have hkind : 16 + i ≠ 1 := by omega
  have hcontroller : 8 ≤ 16 + i - 8 := by omega
  simp [getLsbD_controlWord, hi, hkind, BitVec.getLsbD_of_ge _ _ hcontroller]

end Lanes

@[simp] theorem unpack_pack (slot : Slot) : unpack (pack slot) = slot := by
  match slot with
  | none => rfl
  | some .reading => rfl
  | some (.controlling controller motion) =>
    have hkind : kindControlling ≠ kindReading := by decide
    simp [pack, unpack, controlWord_kind, controlWord_controller, controlWord_motion, hkind]

theorem pack_injective {slot slot' : Slot} (h : pack slot = pack slot') : slot = slot' := by
  have hunpacked := congrArg unpack h
  simpa using hunpacked

/-! ### Cells -/

/-- The word of a slot, as the clients share it. -/
structure Cell where
  word : UInt32 := kindNone
deriving DecidableEq, Repr, Inhabited

namespace Cell

/-- The operation in progress. -/
def current (c : Cell) : Slot := unpack c.word

/-- Puts a word in the place of an expected one, in one step.  Another word stays, and is told. -/
def compareExchange (expected new : UInt32) (c : Cell) : Except UInt32 Unit × Cell :=
  if c.word = expected then (.ok (), ⟨new⟩) else (.error c.word, c)

/-- Why an operation cannot be started over the word that was found. -/
def conflict (op : Operation) (found : UInt32) : Conflict :=
  match unpack found with
  | some holder => .busy op holder
  | none =>
    .other ("cannot start " ++ op.describe ++ " while " ++ Operation.describe? none ++
      " is in progress")

/-- Takes the slot for an operation. -/
def claim (wanted : Option Operation) (c : Cell) : Except SessionError Unit × Cell :=
  match wanted with
  | none => (.error (.conflict .nothingToClaim), c)
  | some op =>
    match c.compareExchange kindNone (pack (some op)) with
    | (.ok (), c) => (.ok (), c)
    | (.error found, c) => (.error (.conflict (conflict op found)), c)

/-- Frees the slot, whatever holds it. -/
def release (_ : Cell) : Cell := ⟨kindNone⟩

@[simp] theorem current_pack (slot : Slot) : current ⟨pack slot⟩ = slot := unpack_pack slot

/-- Claiming the word of a slot is claiming the slot. -/
theorem claim_pack (wanted : Option Operation) (slot : Slot) :
    claim wanted ⟨pack slot⟩ =
      match slot.claim wanted with
      | .ok slot' => (.ok (), ⟨pack slot'⟩)
      | .error err => (.error err, ⟨pack slot⟩) := by
  match wanted, slot with
  | none, _ => rfl
  | some op, none => rfl
  | some op, some holder =>
    have htaken : pack (some holder) ≠ kindNone := by
      intro h
      have hfree : some holder = none := pack_injective h
      cases hfree
    simp [claim, compareExchange, htaken, conflict, Slot.claim]

theorem release_eq (slot : Slot) : release ⟨pack slot⟩ = ⟨pack slot.release.2⟩ := rfl

end Cell
end ArmControl.Slot
