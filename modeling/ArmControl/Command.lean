import ArmControl.State

/-!
# Commands to the arm

The client answers states with `Command`s.  A command names the state it answers and carries a
target for the motion generator and torques for the external controller; the controller uses only
the part that belongs to the active modes.  A command whose `finished` flag is set asks the motion
generator to come to rest.

A command datagram has `Command.size` bytes, and its reader refuses a flag other than 0 and 1.
-/

namespace ArmControl

/-- A target for the motion generator. -/
structure MotionCommand where
  jointPositions : Joints
  jointVelocities : Joints
  pose : Pose
  twist : Twist
  finished : Bool
deriving DecidableEq, Repr

namespace MotionCommand

/-- At rest at the origin. -/
def neutral : MotionCommand := ⟨Joints.zero, Joints.zero, Pose.identity, Twist.zero, false⟩

instance : Inhabited MotionCommand := ⟨neutral⟩

/-- Stay where the arm is: the positions of the state and no velocity. -/
def hold (s : State) : MotionCommand :=
  { neutral with jointPositions := s.jointPositions, pose := s.pose }

def isFinite (m : MotionCommand) : Bool :=
  m.jointPositions.all Binary64.isFinite && m.jointVelocities.all Binary64.isFinite &&
    m.pose.all Binary64.isFinite && m.twist.all Binary64.isFinite

/-- The same target, as the last one. -/
def finish (m : MotionCommand) : MotionCommand := { m with finished := true }

end MotionCommand

/-- The torques of the external controller, in Nm. -/
abbrev Torques := Joints

/-- No value is infinite or a NaN. -/
def Torques.isFinite (t : Torques) : Bool := t.all Binary64.isFinite

/-- What the client sends in one control period. -/
structure Command where
  messageId : UInt64
  motion : MotionCommand
  torques : Torques
deriving DecidableEq, Repr

namespace Command

instance : Inhabited Command := ⟨⟨0, .neutral, Joints.zero⟩⟩

/-- The bytes of a command datagram. -/
def size : Nat := 353

def decodeFlag (b : UInt8) : Except WireError Bool :=
  if b = 0 then .ok false else if b = 1 then .ok true else .error (.invalidValue .finished b)

def flag : Format Bool := Format.uint8.refine decodeFlag (fun b => if b then 1 else 0)

def format : Format Command :=
  let joints := Binary64.format.vector Joints.count
  (Format.uint64.pair <| joints.pair <| joints.pair <| (Binary64.format.vector Pose.count).pair <|
    (Binary64.format.vector Twist.count).pair <| flag.pair joints).iso
    (fun (id, q, dq, pose, twist, finished, torques) => ⟨id, ⟨q, dq, pose, twist, finished⟩, torques⟩)
    (fun c => (c.messageId, c.motion.jointPositions, c.motion.jointVelocities, c.motion.pose,
      c.motion.twist, c.motion.finished, c.torques))

def encode (c : Command) : Bytes := format.put c

def decode (datagram : Bytes) : Except WireError Command := format.getAll size datagram

end Command
end ArmControl
