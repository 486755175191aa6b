import ArmControl.Command
import ArmControl.Error
import ArmControl.Motion.Status

/-!
# The motion in progress

`Motion` is what the client knows of the motion generator and of the motion in progress, and how
states and replies change it:

* `observe` checks the mode that a new state reports against the status,
* `handle` takes a reply that nobody is waiting for,
* `defer` keeps an error that was found at a moment when it could not be raised.

A disagreement with the arm ends the generator (`reset`) and is an error.
-/

namespace ArmControl

structure Motion where
  status : MotionStatus := .notStarted
  /-- The mode that states should report. -/
  expected : MotionMode := .idle
  /-- The id of the accepted `move` request whose motion is in progress. -/
  current : Option UInt32 := none
  /-- The final status of that motion, if it has arrived. -/
  outcome : Option MoveStatus := none
  /-- An error to be raised by the next cycle. -/
  deferred : Option SessionError := none
  /-- The last command sent, to be sent again while the generator comes to rest. -/
  lastCommand : Option Command := none
deriving DecidableEq, Repr, Inhabited

namespace Motion

/-- No generator is active. -/
def reset (m : Motion) : Motion :=
  { m with status := .notStarted, expected := .idle, lastCommand := none }

/-- No generator is active and no motion is in progress. -/
def clear (m : Motion) : Motion :=
  { m.reset with current := none, outcome := none, deferred := none }

/-- Checks the mode that a new state reports. -/
def observe (mode : MotionMode) (m : Motion) : Except SessionError Unit × Motion :=
  match m.status with
  | .notStarted => (.ok (), m)
  | .starting =>
    if mode = m.expected then (.ok (), { m with status := .running })
    else if mode = .idle then (.ok (), m)
    else (.error (.motion (.startedAsOther mode m.expected)), m.reset)
  | .running =>
    if mode = m.expected then (.ok (), m)
    else (.error (.motion (.stoppedUnexpectedly m.expected mode)), m.reset)
  | .stopping => (.ok (), if mode = .idle then m.reset else m)

/-- Takes a reply that nobody is waiting for. -/
def handle (header : Header) (reply : Reply) (m : Motion) : Except SessionError Unit × Motion :=
  match reply with
  | .startMotion .success => (.ok (), m)
  | .startMotion status =>
    if m.status = .notStarted then (.ok (), m)
    else (.error (.motion (.withdrawn status)), m.reset)
  | .move status =>
    if m.current = some header.id then
      if status.isFailure then
        (.error (.motion (.aborted status)), { m with current := none }.reset)
      else if status = .success then (.ok (), { m with outcome := some status })
      else (.ok (), m)
    else (.ok (), m)
  | _ => (.ok (), m)

/-- Keeps the error of a check, unless one is kept already. -/
def defer (checked : Except SessionError Unit × Motion) : Motion :=
  match checked with
  | (.ok (), m) => m
  | (.error err, m) => { m with deferred := m.deferred <|> some err }

/-- Takes the final status of the motion with this id, if it has ended one way or another. -/
def settle (id : UInt32) (m : Motion) : Option (Except SessionError Unit) × Motion :=
  match m.outcome with
  | some .success => (some (.ok ()), { m with outcome := none, current := none })
  | some status =>
    (some (.error (.motion (.finishedWith status))), { m with outcome := none, current := none })
  | none =>
    if m.current = some id then (none, m)
    else (some (.error (.motion (.endedWithoutResult id))), m)

/-- The generator of an accepted start is to be confirmed. -/
def begin (expected : MotionMode) (m : Motion) : Motion :=
  { m with status := .starting, expected }

/-- Exchanges one status for another, if it is there. -/
def exchange (expected new : MotionStatus) (m : Motion) : Motion :=
  { m with status := (MotionStatus.exchange expected new m.status).2 }

end Motion
end ArmControl
