import ArmControl.Command

/-!
# Motion targets

A motion generator is steered by targets of its own kind: seven joint values, a pose, or a twist.  A
target is written into a command, of which it replaces exactly its own part.
-/

namespace ArmControl

namespace MotionType

/-- How many numbers a target for this generator has. -/
def width : MotionType → Nat
  | jointPosition | jointVelocity => Joints.count
  | cartesianPosition => Pose.count
  | cartesianVelocity => Twist.count

end MotionType

/-- A target for a motion generator of this type. -/
structure Target (type : MotionType) where
  values : Vector Binary64 type.width
deriving Repr

namespace Target

variable {type : MotionType}

/-- Writes the target over its part of a command. -/
def writeTo : {type : MotionType} → Target type → MotionCommand → MotionCommand
  | .jointPosition, t, m => { m with jointPositions := t.values }
  | .jointVelocity, t, m => { m with jointVelocities := t.values }
  | .cartesianPosition, t, m => { m with pose := t.values }
  | .cartesianVelocity, t, m => { m with twist := t.values }

/-- The target on top of where the arm is. -/
def command (t : Target type) (s : State) : MotionCommand := t.writeTo (MotionCommand.hold s)

/-- The joint positions of a state. -/
def jointPositions (s : State) : Target .jointPosition := ⟨s.jointPositions⟩

/-- The pose of a state. -/
def pose (s : State) : Target .cartesianPosition := ⟨s.pose⟩

/-- Nothing but zeros. -/
def zero : Target type := ⟨Vector.replicate _ .zero⟩

end Target
end ArmControl
