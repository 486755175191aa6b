/-!
# Why a message cannot be read

A received message is checked from the outside in: its length, the kind of request it names, the
length it declares, and last its one-byte fields in the order in which they stand.  A `WireError`
names the first check that failed.

`WireError.underrun` belongs to no check.  It is how the program stops when it reads past the end of
what was received, so a reader that leaves out a check of the length can be told from one that makes
it.
-/

namespace ArmControl

/-- The one-byte fields whose values are restricted. -/
inductive WireField
  | status
  | motionType
  | controllerMode
  | motionMode
  | robotMode
  | finished
deriving DecidableEq, Repr, Inhabited

/-- The name of a field in messages. -/
def WireField.name : WireField → String
  | .status => "status"
  | .motionType => "motion_generator_type"
  | .controllerMode => "controller_mode"
  | .motionMode => "motion_generator_mode"
  | .robotMode => "robot_mode"
  | .finished => "motion_generation_finished"

/-- The first check that a received message failed, or the end of the program. -/
inductive WireError
  | invalidLength (expected actual : Nat)
  | sizeMismatch (declared actual : Nat)
  | unknownCommand (code : UInt32)
  | invalidValue (field : WireField) (value : UInt8)
  /-- The program stopped: it was about to read more bytes than there are. -/
  | underrun (requested available : Nat)
deriving DecidableEq, Repr, Inhabited

def WireError.message : WireError → String
  | .invalidLength expected actual => s!"Invalid frame length: expected {expected}, got {actual}"
  | .sizeMismatch declared actual =>
    s!"Frame size mismatch: header declares {declared} bytes, frame has {actual}"
  | .unknownCommand code => s!"Unknown command: {code}"
  | .invalidValue field value => "Invalid value for field " ++ field.name ++ ": " ++ toString value
  | .underrun requested available =>
    s!"advance out of bounds: the len is {available} but advancing by {requested}"

end ArmControl
