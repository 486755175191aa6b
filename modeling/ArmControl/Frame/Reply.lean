import ArmControl.Frame.Header

/-!
# Replies

What the controller answers to a request.  A reply has the kind and the id of its request and a
status out of the kind's own enumeration; the reply to `connect` also names the version that the
controller speaks.
-/

namespace ArmControl

inductive ConnectStatus
  | success
  | incompatibleVersion
  | rejected
deriving DecidableEq, Repr, Inhabited

instance : Coded ConnectStatus UInt8 where
  title := "ConnectStatus"
  values := [.success, .incompatibleVersion, .rejected]
  code
    | .success => 0
    | .incompatibleVersion => 1
    | .rejected => 2
  name
    | .success => "Success"
    | .incompatibleVersion => "IncompatibleLibraryVersion"
    | .rejected => "Rejected"
  mem_values a := by cases a <;> decide
  code_injective a b := by cases a <;> cases b <;> decide

inductive StartStatus
  | success
  | rejected
  | aborted
deriving DecidableEq, Repr, Inhabited

instance : Coded StartStatus UInt8 where
  title := "StartMotionGeneratorStatus"
  values := [.success, .rejected, .aborted]
  code
    | .success => 0
    | .rejected => 1
    | .aborted => 2
  name
    | .success => "Success"
    | .rejected => "Rejected"
    | .aborted => "Aborted"
  mem_values a := by cases a <;> decide
  code_injective a b := by cases a <;> cases b <;> decide

inductive StopStatus
  | success
  | rejected
deriving DecidableEq, Repr, Inhabited

instance : Coded StopStatus UInt8 where
  title := "StopMotionGeneratorStatus"
  values := [.success, .rejected]
  code
    | .success => 0
    | .rejected => 1
  name
    | .success => "Success"
    | .rejected => "Rejected"
  mem_values a := by cases a <;> decide
  code_injective a b := by cases a <;> cases b <;> decide

inductive ControllerStatus
  | success
  | rejected
deriving DecidableEq, Repr, Inhabited

instance : Coded ControllerStatus UInt8 where
  title := "SetControllerModeStatus"
  values := [.success, .rejected]
  code
    | .success => 0
    | .rejected => 1
  name
    | .success => "Success"
    | .rejected => "Rejected"
  mem_values a := by cases a <;> decide
  code_injective a b := by cases a <;> cases b <;> decide

/-- A motion is answered twice: `started` at once, and a final status when it has ended. -/
inductive MoveStatus
  | success
  | started
  | preempted
  | notPossibleRejected
  | singularPoseRejected
  | invalidArgumentRejected
  | reflexAborted
  | emergencyAborted
  | inputErrorAborted
  | aborted
deriving DecidableEq, Repr, Inhabited

instance : Coded MoveStatus UInt8 where
  title := "MoveStatus"
  values := [.success, .started, .preempted, .notPossibleRejected, .singularPoseRejected,
    .invalidArgumentRejected, .reflexAborted, .emergencyAborted, .inputErrorAborted, .aborted]
  code
    | .success => 0
    | .started => 1
    | .preempted => 2
    | .notPossibleRejected => 3
    | .singularPoseRejected => 4
    | .invalidArgumentRejected => 5
    | .reflexAborted => 6
    | .emergencyAborted => 7
    | .inputErrorAborted => 8
    | .aborted => 9
  name
    | .success => "Success"
    | .started => "MotionStarted"
    | .preempted => "Preempted"
    | .notPossibleRejected => "CommandNotPossibleRejected"
    | .singularPoseRejected => "StartAtSingularPoseRejected"
    | .invalidArgumentRejected => "InvalidArgumentRejected"
    | .reflexAborted => "ReflexAborted"
    | .emergencyAborted => "EmergencyAborted"
    | .inputErrorAborted => "InputErrorAborted"
    | .aborted => "Aborted"
  mem_values a := by cases a <;> decide
  code_injective a b := by cases a <;> cases b <;> decide

/-- The motion ended, and not as asked. -/
def MoveStatus.isFailure : MoveStatus → Bool
  | .success | .started => false
  | _ => true

inductive StopMoveStatus
  | success
  | notPossibleRejected
  | emergencyAborted
  | reflexAborted
  | aborted
deriving DecidableEq, Repr, Inhabited

instance : Coded StopMoveStatus UInt8 where
  title := "StopMoveStatus"
  values := [.success, .notPossibleRejected, .emergencyAborted, .reflexAborted, .aborted]
  code
    | .success => 0
    | .notPossibleRejected => 1
    | .emergencyAborted => 2
    | .reflexAborted => 3
    | .aborted => 4
  name
    | .success => "Success"
    | .notPossibleRejected => "CommandNotPossibleRejected"
    | .emergencyAborted => "EmergencyAborted"
    | .reflexAborted => "ReflexAborted"
    | .aborted => "Aborted"
  mem_values a := by cases a <;> decide
  code_injective a b := by cases a <;> cases b <;> decide

inductive Reply
  | connect (status : ConnectStatus) (version : UInt16)
  | startMotion (status : StartStatus)
  | stopMotion (status : StopStatus)
  | setController (status : ControllerStatus)
  | move (status : MoveStatus)
  | stopMove (status : StopMoveStatus)
deriving DecidableEq, Repr, Inhabited

namespace Reply

def kind : Reply → FrameKind
  | connect .. => .connect
  | startMotion _ => .startMotion
  | stopMotion _ => .stopMotion
  | setController _ => .setController
  | move _ => .move
  | stopMove _ => .stopMove

/-- How a reply is named in messages. -/
def describe : Reply → String
  | connect status version =>
    "Connect(ConnectResponse \x7b status: " ++ Coded.name status ++ ", version: " ++
      toString version ++ " \x7d)"
  | startMotion status => "StartMotionGenerator(" ++ Coded.name status ++ ")"
  | stopMotion status => "StopMotionGenerator(" ++ Coded.name status ++ ")"
  | setController status => "SetControllerMode(" ++ Coded.name status ++ ")"
  | move status => "Move(" ++ Coded.name status ++ ")"
  | stopMove status => "StopMove(" ++ Coded.name status ++ ")"

def connectFormat : Format (ConnectStatus × UInt16) := (Format.coded .status).pair Format.uint16

/-- The bytes after the header. -/
def payload : Reply → Bytes
  | connect status version => connectFormat.put (status, version)
  | startMotion status => (Format.coded .status).put status
  | stopMotion status => (Format.coded .status).put status
  | setController status => (Format.coded .status).put status
  | move status => (Format.coded .status).put status
  | stopMove status => (Format.coded .status).put status

/-- The bytes of the payload of each kind. -/
def payloadSize : FrameKind → Nat
  | .connect => 3
  | _ => 1

/-- The bytes of the longest reply. -/
def maxSize : Nat := Header.length + payloadSize .connect

def ofPayload (kind : FrameKind) (payload : Bytes) : Except WireError Reply :=
  let size := payloadSize kind
  match kind with
  | .connect => (connectFormat.getAll size payload).map fun (status, version) => connect status version
  | .startMotion => ((Format.coded .status).getAll size payload).map startMotion
  | .stopMotion => ((Format.coded .status).getAll size payload).map stopMotion
  | .setController => ((Format.coded .status).getAll size payload).map setController
  | .move => ((Format.coded .status).getAll size payload).map move
  | .stopMove => ((Format.coded .status).getAll size payload).map stopMove

/-- The frame that carries a reply to the request with the given id. -/
def encode (r : Reply) (id : UInt32) : Bytes := Frame.encode r.kind id r.payload

def decode (frame : Bytes) : Except WireError (Header × Reply) :=
  match Frame.decode frame with
  | .error err => .error err
  | .ok (header, payload) => (ofPayload header.kind payload).map fun r => (header, r)

end Reply
end ArmControl
