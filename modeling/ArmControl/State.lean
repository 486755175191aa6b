import ArmControl.Binary64
import ArmControl.Mode

/-!
# States of the arm

Once in every control period the controller sends a `State`: a snapshot of the joints and of the
hand, with the modes that are active.  Its `messageId` numbers the periods, so the difference of two
ids is the time between them in milliseconds.

A state datagram has `State.size` bytes.  `State.decode` checks the length first and then the three
modes in the order in which they stand.
-/

namespace ArmControl

/-- The joints of the arm. -/
abbrev Joints.count : Nat := 7

/-- The elements of a pose. -/
abbrev Pose.count : Nat := 16

/-- The elements of a twist. -/
abbrev Twist.count : Nat := 6

/-- One value for each joint. -/
abbrev Joints := Vector Binary64 Joints.count

/-- A homogeneous 4×4 transform, column by column. -/
abbrev Pose := Vector Binary64 Pose.count

/-- Linear velocity and then angular velocity. -/
abbrev Twist := Vector Binary64 Twist.count

def Joints.zero : Joints := Vector.replicate Joints.count .zero

def Twist.zero : Twist := Vector.replicate Twist.count .zero

open Binary64 in
def Pose.identity : Pose :=
  #v[one, zero, zero, zero, zero, one, zero, zero, zero, zero, one, zero, zero, zero, zero, one]

/-- A snapshot of the arm in one control period. -/
structure State where
  messageId : UInt64
  jointPositions : Joints
  jointVelocities : Joints
  jointTorques : Joints
  pose : Pose
  motionMode : MotionMode
  controllerMode : ControllerMode
  robotMode : RobotMode
deriving DecidableEq, Repr

namespace State

/-- The arm at the origin with nothing active. -/
def initial : State where
  messageId := 0
  jointPositions := Joints.zero
  jointVelocities := Joints.zero
  jointTorques := Joints.zero
  pose := Pose.identity
  motionMode := .idle
  controllerMode := .jointImpedance
  robotMode := .other

instance : Inhabited State := ⟨initial⟩

/-- The bytes of a state datagram. -/
def size : Nat := 307

def format : Format State :=
  let joints := Binary64.format.vector Joints.count
  (Format.uint64.pair <| joints.pair <| joints.pair <| joints.pair <|
    (Binary64.format.vector Pose.count).pair <| (Format.coded .motionMode).pair <|
    (Format.coded .controllerMode).pair (Format.coded .robotMode)).iso
    (fun (id, q, dq, tau, pose, motion, controller, robot) =>
      ⟨id, q, dq, tau, pose, motion, controller, robot⟩)
    (fun s => (s.messageId, s.jointPositions, s.jointVelocities, s.jointTorques, s.pose,
      s.motionMode, s.controllerMode, s.robotMode))

def encode (s : State) : Bytes := format.put s

def decode (datagram : Bytes) : Except WireError State := format.getAll size datagram

end State
end ArmControl
