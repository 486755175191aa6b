import ArmControl.Wire.Coded

/-!
# Frames on the reliable channel

A frame is a header of twelve bytes and a payload.  The header names the kind of request, the id
that joins a reply to its request, and the length of the whole frame.

`Frame.decode` reports the first of three faults: fewer than twelve bytes, a kind that does not
exist, and a declared length that is not the length of the frame.
-/

namespace ArmControl

/-- The kinds of request; a reply has the kind of its request. -/
inductive FrameKind
  | connect
  | startMotion
  | stopMotion
  | setController
  | move
  | stopMove
deriving DecidableEq, Repr, Inhabited

instance : Coded FrameKind UInt32 where
  title := "Command"
  values := [.connect, .startMotion, .stopMotion, .setController, .move, .stopMove]
  code
    | .connect => 0
    | .startMotion => 1
    | .stopMotion => 2
    | .setController => 3
    | .move => 4
    | .stopMove => 5
  name
    | .connect => "Connect"
    | .startMotion => "StartMotionGenerator"
    | .stopMotion => "StopMotionGenerator"
    | .setController => "SetControllerMode"
    | .move => "Move"
    | .stopMove => "StopMove"
  mem_values a := by cases a <;> decide
  code_injective a b := by cases a <;> cases b <;> decide

/-- The front of a frame. -/
structure Header where
  kind : FrameKind
  id : UInt32
  /-- The bytes of the whole frame, the header included. -/
  size : UInt32
deriving DecidableEq, Repr, Inhabited

namespace Header

/-- The bytes of a header. -/
def length : Nat := 12

/-- The header of a frame with a payload of the given length. -/
def ofPayload (kind : FrameKind) (id : UInt32) (payload : Nat) : Header :=
  ⟨kind, id, UInt32.ofNat (length + payload)⟩

def decodeKind (code : UInt32) : Except WireError FrameKind :=
  match Coded.ofCode? FrameKind code with
  | some kind => .ok kind
  | none => .error (.unknownCommand code)

def format : Format Header :=
  ((Format.uint32.refine decodeKind Coded.code).pair (Format.uint32.pair Format.uint32)).iso
    (fun (kind, id, size) => ⟨kind, id, size⟩) (fun h => (h.kind, h.id, h.size))

/-- The length that the frame at the front of a byte stream declares, once its header is there. -/
def declaredSize? (stream : Bytes) : Option Nat :=
  if stream.length < length then none
  else some (Wire.ofLittleEndian ((stream.drop 8).take 4))

end Header

namespace Frame

def encode (kind : FrameKind) (id : UInt32) (payload : Bytes) : Bytes :=
  Header.format.put (Header.ofPayload kind id payload.length) ++ payload

/-- The header and the payload of a frame. -/
def decode (frame : Bytes) : Except WireError (Header × Bytes) :=
  if frame.length < Header.length then .error (.invalidLength Header.length frame.length)
  else
    match Header.format.get frame with
    | .error err => .error err
    | .ok (header, payload) =>
      if header.size.toNat = frame.length then .ok (header, payload)
      else .error (.sizeMismatch header.size.toNat frame.length)

end Frame
end ArmControl
