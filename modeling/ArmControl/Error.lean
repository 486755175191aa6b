import ArmControl.Frame.Reply
import ArmControl.Operation
import ArmControl.Settings.Fault

/-!
# Errors of a session

A session fails because of the link (`LinkError`), because of a message that cannot be read
(`WireError`), or because of what the controller or the caller asked for.  Each error is a cause;
`message` gives its wording.  Link and wire errors are fatal: the session cannot go on after them.
-/

namespace ArmControl

/-- Why the link did not carry a message. -/
inductive LinkError
  | io (text : String)
  | timeout
  | closed
  | invalidAddress (text : String)
  | invalidFrame (size : Nat)
  | noPeer
deriving DecidableEq, Repr, Inhabited

namespace LinkError

def message : LinkError → String
  | io text => "IO Error: " ++ text
  | timeout => "Receive timeout"
  | closed => "Connection closed"
  | invalidAddress text => "Invalid address: " ++ text
  | invalidFrame size => "Invalid frame size: " ++ toString size
  | noPeer => "No datagram peer known yet"

def isTimeout : LinkError → Bool
  | timeout => true
  | _ => false

end LinkError

/-- Why a motion generator or a motion could not be started or stopped, or came to an end. -/
inductive MotionFault
  /-- A generator is active already. -/
  | alreadyGenerating
  /-- A generator is active or a motion is in progress already. -/
  | alreadyMoving
  | startRejected (reply : Reply)
  | stopRejected (reply : Reply)
  | controllerRejected (mode : ControllerMode) (reply : Reply)
  | moveRejected (reply : Reply)
  /-- No state confirmed the generator in time. -/
  | unconfirmed (expected : MotionMode)
  /-- No state confirmed the controller in time. -/
  | controllerUnconfirmed (mode : ControllerMode)
  /-- The generator came to an end while it was to be confirmed. -/
  | stoppedBeforeConfirmed
  /-- A state reported another generator than the one being started. -/
  | startedAsOther (reported expected : MotionMode)
  /-- A state reported another generator than the one running. -/
  | stoppedUnexpectedly (expected reported : MotionMode)
  /-- The controller took back the start of the generator. -/
  | withdrawn (status : StartStatus)
  /-- The controller ended the motion in progress. -/
  | aborted (status : MoveStatus)
  | notRunning
  /-- The final status of the motion was not success. -/
  | finishedWith (status : MoveStatus)
  /-- The motion came to an end without a final status. -/
  | endedWithoutResult (id : UInt32)
  | other (text : String)
deriving DecidableEq, Repr, Inhabited

open Coded (name) in
def MotionFault.message : MotionFault → String
  | alreadyGenerating => "attempted to start multiple motion generators"
  | alreadyMoving => "attempted to start multiple motions"
  | startRejected reply => "motion generator start rejected: " ++ reply.describe
  | stopRejected reply => "motion generator stop rejected: " ++ reply.describe
  | controllerRejected mode reply =>
    "controller mode " ++ name mode ++ " rejected: " ++ reply.describe
  | moveRejected reply => "move command rejected: " ++ reply.describe
  | unconfirmed expected => "robot did not confirm motion generator " ++ name expected
  | controllerUnconfirmed mode => "robot did not confirm controller mode " ++ name mode
  | stoppedBeforeConfirmed => "motion generator stopped before it was confirmed"
  | startedAsOther reported expected =>
    "robot reports " ++ name reported ++ " while starting " ++ name expected
  | stoppedUnexpectedly expected reported =>
    "motion generator " ++ name expected ++ " stopped unexpectedly, robot reports " ++ name reported
  | withdrawn status => "motion generator rejected by robot: " ++ name status
  | aborted status => "motion aborted: " ++ name status
  | notRunning => "no motion generator running"
  | finishedWith status => "motion finished with " ++ name status
  | endedWithoutResult id => "motion " ++ toString id ++ " ended without a result"
  | other text => text

/-- Why the connection was refused by the controller. -/
inductive Refusal
  | connection (status : ConnectStatus)
  | other (text : String)
deriving DecidableEq, Repr, Inhabited

def Refusal.message : Refusal → String
  | connection status => "connection rejected by robot: " ++ Coded.name status
  | other text => text

/-- Why an operation may not be started or continued. -/
inductive Conflict
  /-- Another operation holds the session. -/
  | busy (wanted holder : Operation)
  /-- There is no operation to claim the session for. -/
  | nothingToClaim
  | notInProgress (motion : UInt32)
  | other (text : String)
deriving DecidableEq, Repr, Inhabited

def Conflict.message : Conflict → String
  | busy wanted holder =>
    "cannot start " ++ wanted.describe ++ " while " ++ holder.describe ++ " is in progress"
  | nothingToClaim => "cannot claim an empty operation"
  | notInProgress motion => "motion " ++ toString motion ++ " is not in progress"
  | other text => text

/-- Why a command may not be sent. -/
inductive CommandFault
  | motionNotFinite
  | torquesNotFinite
  | other (text : String)
deriving DecidableEq, Repr, Inhabited

def CommandFault.message : CommandFault → String
  | motionNotFinite => "motion command contains NaN or infinite values"
  | torquesNotFinite => "torque command contains NaN or infinite values"
  | other text => text

/-- Why the thread was not given real-time priority. -/
inductive RealtimeFault
  | unsupported
  | denied (cause : String)
  | other (text : String)
deriving DecidableEq, Repr, Inhabited

def RealtimeFault.message : RealtimeFault → String
  | unsupported => "built without the `realtime` feature"
  | denied cause =>
    "failed to raise control thread priority: " ++ cause ++
      ". On Linux, you may need CAP_SYS_NICE or rtkit"
  | other text => text

/-- Why a session could not do what it was asked to. -/
inductive SessionError
  | link (cause : LinkError)
  | wire (cause : WireError)
  | incompatibleVersion (server library : UInt16)
  | motion (cause : MotionFault)
  | refused (cause : Refusal)
  | conflict (cause : Conflict)
  | command (cause : CommandFault)
  | realtime (cause : RealtimeFault)
deriving DecidableEq, Repr, Inhabited

namespace SessionError

def message : SessionError → String
  | link cause => "Network error: " ++ cause.message
  | wire cause => "Protocol error: " ++ cause.message
  | incompatibleVersion server library =>
    "Incompatible library version (server version: " ++ toString server ++
      ", library version: " ++ toString library ++ ")"
  | motion cause => "Motion generator error: " ++ cause.message
  | refused cause => "Command rejected: " ++ cause.message
  | conflict cause => "Invalid operation: " ++ cause.message
  | command cause => "Invalid command: " ++ cause.message
  | realtime cause => "Realtime error: " ++ cause.message

/-- The session cannot go on. -/
def isFatal : SessionError → Bool
  | link _ | wire _ => true
  | _ => false

def isTimeout : SessionError → Bool
  | link cause => cause.isTimeout
  | _ => false

/-- The link was closed. -/
def closed : SessionError := link .closed

end SessionError

/-- Why settings could not be loaded. -/
inductive SettingsError
  /-- The file system gave no file. -/
  | unreadable (path reason : String)
  | notUtf8 (path : String)
  | malformed (fault : SettingsFault)
deriving DecidableEq, Repr, Inhabited

def SettingsError.message : SettingsError → String
  | unreadable path reason => "failed to read " ++ path ++ ": " ++ reason
  | notUtf8 path => "failed to read " ++ path ++ ": stream did not contain valid UTF-8"
  | malformed fault => "invalid session config: " ++ fault.message

/-- What a caller of the robot gets to see: the errors of the session, and those of its settings. -/
inductive RobotError
  | session (cause : SessionError)
  | settings (cause : SettingsError)
deriving DecidableEq, Repr, Inhabited

namespace RobotError

def message : RobotError → String
  | session cause => cause.message
  | settings cause => "Config error: " ++ cause.message

/-- The connection is of no more use. -/
def isFatal : RobotError → Bool
  | session cause => cause.isFatal
  | settings _ => false

def isTimeout : RobotError → Bool
  | session cause => cause.isTimeout
  | settings _ => false

/-- The link was closed. -/
def closed : RobotError := session .closed

end RobotError
end ArmControl
