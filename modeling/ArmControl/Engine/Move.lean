import ArmControl.Engine.Generator

/-!
# Motions

A motion is one `move` request that sets the controller and the motion generator at once.  It is
answered when it begins and once more when it has ended.

`startMotion` waits for the first answer and for a state that confirms the generator, and cancels
the motion if none does.  `finishMotion` sends finishing commands until a state reports that the
generator is at rest, and then waits for the second answer.  `cancelMotion` always leaves the engine
without a motion, whatever becomes of its request.
-/

namespace ArmControl.Engine

/-- Asks the controller to end a motion, and forgets it. -/
def cancelMotion (e : Engine) : Engine :=
  let e := (e.execute .stopMove).2
  e.withMotion e.motion.clear

/-- Starts a motion and gives its id. -/
def startMotion (controller : ControllerMode) (motion : MotionMode) (path goal : Deviation)
    (e : Engine) : Except SessionError UInt32 × Engine :=
  if e.motion.status ≠ .notStarted ∨ e.motion.current.isSome then
    (.error (.motion .alreadyMoving), e)
  else
    let since := e.lastId
    let e := e.withMotion { e.motion with outcome := none }
    match e.execute (.move ⟨controller, motion, path, goal⟩) with
    | (.error err, e) => (.error err, e)
    | (.ok (id, .move .started), e) =>
      let e := e.withMotion ({ e.motion with current := some id }.begin motion)
      match e.confirmGenerator since with
      | (.error err, e) => (.error err, e.cancelMotion)
      | (.ok (), e) => (.ok id, { e with controllerMode := some controller })
    | (.ok (_, reply), e) => (.error (.motion (.moveRejected reply)), e)

/-- Sends finishing commands until the generator is no longer on its way to rest. -/
def drain (finishing : MotionCommand) (torques : Option Torques) (e : Engine) :
    Except SessionError Unit × Engine :=
  if e.motion.status = .stopping then
    match _u : e.update (some finishing) torques with
    | (.ok (some _), e') => drain finishing torques e'
    | (.ok none, e') => (.error .closed, e')
    | (.error err, e') => (.error err, e')
  else (.ok (), e)
termination_by e.supply
decreasing_by exact update_supply_lt _u

/-- A reply may settle the motion; states are checked on the way. -/
def judgeOutcome (id : UInt32) : Judge Unit
  | .state s, m =>
    match m.observe s.motionMode with
    | (.error err, m) => (some (.error err), m)
    | (.ok (), m) => m.settle id
  | .reply header reply, m =>
    match m.handle header reply with
    | (.error err, m) => (some (.error err), m)
    | (.ok (), m) => m.settle id

/-- Waits for the final status of a motion. -/
def awaitOutcome (id : UInt32) (e : Engine) : Except SessionError Unit × Engine :=
  match e.motion.settle id with
  | (some result, m) => (result, e.withMotion m)
  | (none, m) => (e.withMotion m).wait (judgeOutcome id) (.error .closed)

/-- Brings a motion to its end. -/
def finishMotion (id : UInt32) (motion : Option MotionCommand) (torques : Option Torques)
    (e : Engine) : Except SessionError Unit × Engine :=
  if e.motion.current ≠ some id then (.error (.conflict (.notInProgress id)), e)
  else
    let e := e.withMotion (e.motion.exchange .running .stopping)
    let last := motion.getD ((e.lastState.map MotionCommand.hold).getD .neutral)
    match e.drain last.finish torques with
    | (.error err, e) => (.error err, e)
    | (.ok (), e) => e.awaitOutcome id

end ArmControl.Engine
