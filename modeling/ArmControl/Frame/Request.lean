import ArmControl.Deviation
import ArmControl.Frame.Header
import ArmControl.Mode

/-!
# Requests

What the client asks of the controller on the reliable channel.  Each kind of request has a payload
of its own fixed length, which `Request.decode` checks before the fields.
-/

namespace ArmControl

/-- A motion with its controller and its tolerances; with the mode `idle` only torques are sent. -/
structure MoveRequest where
  controllerMode : ControllerMode
  motionMode : MotionMode
  path : Deviation
  goal : Deviation
deriving DecidableEq, Repr, Inhabited

inductive Request
  | connect (version udpPort : UInt16)
  | startMotion (type : MotionType)
  | stopMotion
  | setController (mode : ControllerMode)
  | move (request : MoveRequest)
  | stopMove
deriving DecidableEq, Repr, Inhabited

namespace Request

def kind : Request → FrameKind
  | connect .. => .connect
  | startMotion _ => .startMotion
  | stopMotion => .stopMotion
  | setController _ => .setController
  | move _ => .move
  | stopMove => .stopMove

def connectFormat : Format (UInt16 × UInt16) := Format.uint16.pair Format.uint16

def moveFormat : Format MoveRequest :=
  ((Format.coded .controllerMode).pair <| (Format.coded .motionMode).pair <|
    Deviation.format.pair Deviation.format).iso
    (fun (controller, motion, path, goal) => ⟨controller, motion, path, goal⟩)
    (fun m => (m.controllerMode, m.motionMode, m.path, m.goal))

/-- The bytes after the header. -/
def payload : Request → Bytes
  | connect version port => connectFormat.put (version, port)
  | startMotion type => (Format.coded .motionType).put type
  | stopMotion => []
  | setController mode => (Format.coded .controllerMode).put mode
  | move request => moveFormat.put request
  | stopMove => []

/-- The bytes of the payload of each kind. -/
def payloadSize : FrameKind → Nat
  | .connect => 4
  | .startMotion => 1
  | .stopMotion => 0
  | .setController => 1
  | .move => 50
  | .stopMove => 0

def ofPayload (kind : FrameKind) (payload : Bytes) : Except WireError Request :=
  let size := payloadSize kind
  match kind with
  | .connect => (connectFormat.getAll size payload).map fun (version, port) => connect version port
  | .startMotion => ((Format.coded .motionType).getAll size payload).map startMotion
  | .stopMotion => if payload.length = size then .ok stopMotion else .error (.invalidLength size payload.length)
  | .setController => ((Format.coded .controllerMode).getAll size payload).map setController
  | .move => (moveFormat.getAll size payload).map move
  | .stopMove => if payload.length = size then .ok stopMove else .error (.invalidLength size payload.length)

/-- The frame that carries a request under an id. -/
def encode (r : Request) (id : UInt32) : Bytes := Frame.encode r.kind id r.payload

def decode (frame : Bytes) : Except WireError (Header × Request) :=
  match Frame.decode frame with
  | .error err => .error err
  | .ok (header, payload) => (ofPayload header.kind payload).map fun r => (header, r)

end Request
end ArmControl
