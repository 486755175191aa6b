import ArmControl.Engine.Request

/-!
# Motion generators and controllers

Starting a motion generator and choosing a controller are requests that count only when a state
newer than the request confirms them.  Stopping the generator begins its way to rest; when the
controller does not agree, the generator counts as running again.
-/

namespace ArmControl.Engine

/-- Whether a state is newer than all that had been accepted at some moment. -/
def newerThan (since : Option UInt64) (s : State) : Bool :=
  match since with
  | none => true
  | some id => id < s.messageId

def resetMotion (e : Engine) : Engine := e.withMotion e.motion.reset

/-- Looks whether the deadline has passed. -/
def look (e : Engine) : Bool × Engine :=
  let (late, clock) := e.clock.look
  (late, { e with clock })

/-- Waits until a state confirms the generator that is starting. -/
def awaitGenerator (e : Engine) : Except SessionError Unit × Engine :=
  match e.motion.status with
  | .running => (.ok (), e)
  | .starting =>
    match _l : e.look with
    | (true, e₁) => (.error (.motion (.unconfirmed e₁.motion.expected)), e₁.resetMotion)
    | (false, e₁) =>
      match _p : e₁.poll with
      | (.ok (some _), e₂) => awaitGenerator e₂
      | (.ok none, e₂) => (.error .closed, e₂.resetMotion)
      | (.error err, e₂) => (.error err, e₂.resetMotion)
  | _ =>
    (.error (e.motion.deferred.getD (.motion .stoppedBeforeConfirmed)),
      e.withMotion { e.motion with deferred := none })
termination_by e.link.pending.length
decreasing_by
  have hlink : e₁.link = e.link := by
    have := congrArg (fun r => r.2.link) _l
    exact this.symm
  rw [← hlink]
  exact poll_length_lt _p

/-- Confirms the generator that is starting: by the last state if that is new, or else by one of the
next. -/
def confirmGenerator (since : Option UInt64) (e : Engine) : Except SessionError Unit × Engine :=
  match e.lastState with
  | some s =>
    if newerThan since s then
      match e.motion.observe s.motionMode with
      | (.error err, m) => (.error err, e.withMotion m)
      | (.ok (), m) => (e.withMotion m).awaitGenerator
    else e.awaitGenerator
  | none => e.awaitGenerator

/-- Starts a motion generator and waits until it runs. -/
def startGenerator (type : MotionType) (e : Engine) : Except SessionError Unit × Engine :=
  if e.motion.status ≠ .notStarted then (.error (.motion .alreadyGenerating), e)
  else
    let since := e.lastId
    match e.execute (.startMotion type) with
    | (.error err, e) => (.error err, e)
    | (.ok (_, .startMotion .success), e) =>
      (e.withMotion (e.motion.begin type.mode)).confirmGenerator since
    | (.ok (_, reply), e) => (.error (.motion (.startRejected reply)), e)

/-- Asks the running motion generator to come to rest. -/
def stopGenerator (e : Engine) : Except SessionError Unit × Engine :=
  if e.motion.status ≠ .running then (.error (.motion .notRunning), e)
  else
    let e := e.withMotion (e.motion.exchange .running .stopping)
    match e.execute .stopMotion with
    | (.error err, e) => (.error err, e.withMotion (e.motion.exchange .stopping .running))
    | (.ok (_, .stopMotion .success), e) => (.ok (), e)
    | (.ok (_, reply), e) =>
      (.error (.motion (.stopRejected reply)), e.withMotion (e.motion.exchange .stopping .running))

/-- The last state is new and reports this controller. -/
def confirmsController (mode : ControllerMode) (since : Option UInt64) (e : Engine) : Bool :=
  match e.lastState with
  | some s => newerThan since s && s.controllerMode = mode
  | none => false

/-- Waits until a state confirms the controller. -/
def awaitController (mode : ControllerMode) (since : Option UInt64) (e : Engine) :
    Except SessionError Unit × Engine :=
  if e.confirmsController mode since then (.ok (), { e with controllerMode := some mode })
  else
    match _l : e.look with
    | (true, e₁) => (.error (.motion (.controllerUnconfirmed mode)), e₁)
    | (false, e₁) =>
      match _p : e₁.poll with
      | (.ok (some _), e₂) => awaitController mode since e₂
      | (.ok none, e₂) => (.error .closed, e₂)
      | (.error err, e₂) => (.error err, e₂)
termination_by e.link.pending.length
decreasing_by
  have hlink : e₁.link = e.link := by
    have := congrArg (fun r => r.2.link) _l
    exact this.symm
  rw [← hlink]
  exact poll_length_lt _p

/-- Chooses a controller and waits until it is active. -/
def setController (mode : ControllerMode) (e : Engine) : Except SessionError Unit × Engine :=
  let since := e.lastId
  match e.execute (.setController mode) with
  | (.error err, e) => (.error err, e)
  | (.ok (_, .setController .success), e) => e.awaitController mode since
  | (.ok (_, reply), e) => (.error (.motion (.controllerRejected mode reply)), e)

end ArmControl.Engine
