/-!
# The status of the motion generator

A motion generator is started, confirmed by a state, stopped, and gone once a state reports that
none is active:

    notStarted → starting → running → stopping → notStarted

Any disagreement with what the arm reports leads back to `notStarted` at once.
-/

namespace ArmControl

inductive MotionStatus
  | notStarted
  /-- The start was accepted, and no state has confirmed it yet. -/
  | starting
  | running
  /-- The stop was asked for, and no state has reported its end yet. -/
  | stopping
deriving DecidableEq, Repr, Inhabited

namespace MotionStatus

def code : MotionStatus → UInt8
  | notStarted => 0
  | starting => 1
  | running => 2
  | stopping => 3

/-- The status with this code; a code of no status reads as `notStarted`. -/
def ofCode (code : UInt8) : MotionStatus :=
  if code = 1 then starting else if code = 2 then running else if code = 3 then stopping
  else notStarted

def name : MotionStatus → String
  | notStarted => "NotStarted"
  | starting => "Starting"
  | running => "Running"
  | stopping => "Stopping"

/-- The arm is moving or coming to rest. -/
def isRunning : MotionStatus → Bool
  | running | stopping => true
  | _ => false

/-- Exchanges one status for another, and says whether it was there. -/
def exchange (expected new current : MotionStatus) : Bool × MotionStatus :=
  if current = expected then (true, new) else (false, current)

@[simp] theorem ofCode_code (s : MotionStatus) : ofCode s.code = s := by cases s <;> decide

end MotionStatus
end ArmControl
