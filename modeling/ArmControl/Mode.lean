import ArmControl.Wire.Coded

/-!
# Modes of the arm

Each state of the arm reports three modes: the motion generator that is active, the controller that
tracks its output, and the condition of the arm as a whole.
-/

namespace ArmControl

/-- The motion generator that is active; `idle` when there is none. -/
inductive MotionMode
  | idle
  | jointPosition
  | jointVelocity
  | cartesianPosition
  | cartesianVelocity
deriving DecidableEq, Repr, Inhabited

instance : Coded MotionMode UInt8 where
  title := "MotionGeneratorMode"
  values := [.idle, .jointPosition, .jointVelocity, .cartesianPosition, .cartesianVelocity]
  code
    | .idle => 0
    | .jointPosition => 1
    | .jointVelocity => 2
    | .cartesianPosition => 3
    | .cartesianVelocity => 4
  name
    | .idle => "Idle"
    | .jointPosition => "JointPosition"
    | .jointVelocity => "JointVelocity"
    | .cartesianPosition => "CartesianPosition"
    | .cartesianVelocity => "CartesianVelocity"
  mem_values a := by cases a <;> decide
  code_injective a b := by cases a <;> cases b <;> decide

/-- A motion generator that can be started. -/
inductive MotionType
  | jointPosition
  | jointVelocity
  | cartesianPosition
  | cartesianVelocity
deriving DecidableEq, Repr, Inhabited

instance : Coded MotionType UInt8 where
  title := "MotionGeneratorType"
  values := [.jointPosition, .jointVelocity, .cartesianPosition, .cartesianVelocity]
  code
    | .jointPosition => 1
    | .jointVelocity => 2
    | .cartesianPosition => 3
    | .cartesianVelocity => 4
  name
    | .jointPosition => "JointPosition"
    | .jointVelocity => "JointVelocity"
    | .cartesianPosition => "CartesianPosition"
    | .cartesianVelocity => "CartesianVelocity"
  mem_values a := by cases a <;> decide
  code_injective a b := by cases a <;> cases b <;> decide

/-- The mode that the arm reports while a generator of this type runs. -/
def MotionType.mode : MotionType → MotionMode
  | .jointPosition => .jointPosition
  | .jointVelocity => .jointVelocity
  | .cartesianPosition => .cartesianPosition
  | .cartesianVelocity => .cartesianVelocity

/-- The controller that tracks the motion; `external` when the client sends joint torques. -/
inductive ControllerMode
  | jointImpedance
  | cartesianImpedance
  | external
  | other
deriving DecidableEq, Repr, Inhabited

instance : Coded ControllerMode UInt8 where
  title := "ControllerMode"
  values := [.jointImpedance, .cartesianImpedance, .external, .other]
  code
    | .jointImpedance => 0
    | .cartesianImpedance => 1
    | .external => 2
    | .other => 3
  name
    | .jointImpedance => "JointImpedance"
    | .cartesianImpedance => "CartesianImpedance"
    | .external => "ExternalController"
    | .other => "Other"
  mem_values a := by cases a <;> decide
  code_injective a b := by cases a <;> cases b <;> decide

/-- The condition of the arm as a whole. -/
inductive RobotMode
  | other
  | idle
  | move
  | guiding
  | reflex
  | userStopped
  | automaticErrorRecovery
deriving DecidableEq, Repr, Inhabited

instance : Coded RobotMode UInt8 where
  title := "RobotMode"
  values := [.other, .idle, .move, .guiding, .reflex, .userStopped, .automaticErrorRecovery]
  code
    | .other => 0
    | .idle => 1
    | .move => 2
    | .guiding => 3
    | .reflex => 4
    | .userStopped => 5
    | .automaticErrorRecovery => 6
  name
    | .other => "Other"
    | .idle => "Idle"
    | .move => "Move"
    | .guiding => "Guiding"
    | .reflex => "Reflex"
    | .userStopped => "UserStopped"
    | .automaticErrorRecovery => "AutomaticErrorRecovery"
  mem_values a := by cases a <;> decide
  code_injective a b := by cases a <;> cases b <;> decide

end ArmControl
