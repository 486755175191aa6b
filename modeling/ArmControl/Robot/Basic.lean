import ArmControl.ControlLoop
import ArmControl.Slot
import ArmControl.Target

/-!
# The robot

A `Robot` is a session as its user sees it.  Every operation first claims the slot of the session
and fails, without any effect, while another operation is in progress; it releases the slot when it
ends, in whatever way.

Callbacks have the robot itself at hand and may call its operations.  Since the slot is taken while
a callback runs, all that such a call does is fail.  A `Robot.Callback` says so in its type: while
an operation is in progress, nothing but happenings on the link comes out of it.
-/

namespace ArmControl

structure Robot where
  slot : Slot := .free
  engine : Engine
deriving Inhabited

namespace Robot

/-- The robot after some happenings on its link. -/
def witness (r : Robot) (hs : List Happening) : Robot := { r with engine := r.engine.witness hs }

/-- The version that the controller named in the handshake. -/
def serverVersion (r : Robot) : UInt16 := r.engine.session.serverVersion

/-- The arm is moving or coming to rest. -/
def isRunning (r : Robot) : Bool := r.engine.motion.status.isRunning

/-- The last state that was accepted. -/
def latestState (r : Robot) : Option State := r.engine.published

def metrics (r : Robot) : Metrics := r.engine.metrics

/-- Agrees with the controller at the far end of a link on a version, and makes a robot of the
session. -/
def connect (link : Link) (settings : Settings) (clock : Clock) :
    Except RobotError Unit × Robot :=
  let (result, session) := Session.handshake link
  (result.mapError .session, { engine := .start session settings clock })

/-! ### Callbacks -/

/-- A function of the user that has the robot at hand. -/
structure Callback {σ : Type} (credit : σ → Nat) (ι ρ : Type) where
  call : ι → Robot → σ → ρ × σ × Robot
  /-- While an operation is in progress, nothing but happenings, within the credit. -/
  outside : ∀ input (r : Robot) m, r.slot ≠ none → ∃ hs, (call input r m).2.2 = r.witness hs ∧
    Happening.totalCost hs + credit (call input r m).2.1 ≤ credit m

variable {σ : Type} {credit : σ → Nat} {ι ρ ρ' : Type}

namespace Callback

/-- A callback that leaves the robot alone. -/
def ofPure (f : ι → σ → ρ × σ) : Callback (fun _ : σ => 0) ι ρ where
  call input r m := ((f input m).1, (f input m).2, r)
  outside _ _ _ _ := ⟨[], rfl, by simp [Happening.totalCost]⟩

/-- The callback as the engine calls it, with the operation in progress kept beside the memory. -/
def onEngine (cb : Callback credit ι ρ) :
    ArmControl.Callback (fun p : Operation × σ => credit p.2) ι ρ where
  call input e p :=
    let (answer, m, r) := cb.call input ⟨some p.1, e⟩ p.2
    (answer, (r.slot.getD p.1, m), r.engine)
  outside input e p := by
    obtain ⟨hs, heq, hle⟩ := cb.outside input ⟨some p.1, e⟩ p.2 (by simp)
    exact ⟨hs, congrArg Robot.engine heq, hle⟩

end Callback

/-! ### Operations -/

/-- Runs an activity of the engine as an operation: with the slot claimed before and released
after. -/
def operate {α : Type} (op : Operation)
    (activity : Engine → Operation × σ → Except SessionError α × (Operation × σ) × Engine)
    (r : Robot) (m : σ) : Except RobotError α × σ × Robot :=
  match r.slot.claim (some op) with
  | .error err => (.error (.session err), m, r)
  | .ok _ =>
    let (result, (_, m), engine) := activity r.engine (op, m)
    (result.mapError .session, m, { slot := .free, engine })

/-- Shows states to a callback until it has seen enough or the channel ends. -/
def showStates (cb : ArmControl.Callback credit State Bool) (e : Engine) (m : σ) :
    Except SessionError Unit × σ × Engine :=
  match _u : e.update none none with
  | (.error err, e₁) => (.error err, m, e₁)
  | (.ok none, e₁) => (.ok (), m, e₁)
  | (.ok (some s), e₁) =>
    match _c : cb.call s e₁ m with
    | (true, m₁, e₂) => showStates cb e₂ m₁
    | (false, m₁, e₂) => (.ok (), m₁, e₂)
termination_by e.supply + credit m
decreasing_by
  have h₁ := Engine.update_supply_lt _u
  have h₂ := cb.call_supply_le s e₁ m
  rw [_c] at h₂
  simp only at h₂
  omega

/-- Reads states until the callback has seen enough. -/
def read (cb : Callback credit State Bool) (r : Robot) (m : σ) :
    Except RobotError Unit × σ × Robot :=
  operate .reading (showStates cb.onEngine) r m

/-- Reads the next state. -/
def readOnce (r : Robot) : Except RobotError State × Robot :=
  let next (e : Engine) (p : Operation × Unit) :=
    match e.update none none with
    | (.error err, e) => (.error err, p, e)
    | (.ok none, e) => (.error .closed, p, e)
    | (.ok (some s), e) => (.ok s, p, e)
  let (result, _, r) := operate .reading next r ()
  (result, r)

/-- Chooses a controller and then reads states, from the one that confirms it on, until the callback
has seen enough. -/
def controlIdle (controller : ControllerMode) (cb : Callback credit State Bool) (r : Robot) (m : σ) :
    Except RobotError Unit × σ × Robot :=
  let activity (e : Engine) (p : Operation × σ) :=
    match e.setController controller with
    | (.error err, e) => (.error err, p, e)
    | (.ok (), e) =>
      match e.lastState with
      | none => showStates cb.onEngine e p
      | some s =>
        match cb.onEngine.call s e p with
        | (true, p, e) => showStates cb.onEngine e p
        | (false, p, e) => (.ok (), p, e)
  operate (.controlling controller .idle) activity r m

/-- Steers a motion. -/
def steer (controller : ControllerMode) (motion : MotionMode)
    (steering : ControlLoop.Steering (fun p : Operation × σ => credit p.2)) (r : Robot) (m : σ) :
    Except RobotError Unit × σ × Robot :=
  operate (.controlling controller motion) (ControlLoop.run controller motion steering) r m

/-- Moves the arm by targets for one motion generator. -/
def controlMotion {type : MotionType} (controller : ControllerMode)
    (cb : Callback credit Tick (Step (Target type))) (r : Robot) (m : σ) :
    Except RobotError Unit × σ × Robot :=
  let steering := cb.onEngine.map fun tick step =>
    .ok (step.map fun target => { motion := some (target.command tick.state) })
  steer controller type.mode steering r m

/-- Drives the joints by torques alone. -/
def controlTorques (cb : Callback credit Tick (Step Torques)) (r : Robot) (m : σ) :
    Except RobotError Unit × σ × Robot :=
  let steering := cb.onEngine.map fun _ step =>
    .ok (step.map fun torques => { torques := some torques })
  steer .external .idle steering r m

/-- The step that two callbacks take together: they go on only if both do. -/
def together {type : MotionType} (tick : Tick) :
    Step (Target type) × Step Torques → Step LoopCommand
  | (.proceed target, .proceed torques) =>
    .proceed { motion := some (target.command tick.state), torques := some torques }
  | _ => .stop

/-- Moves the arm by targets for one motion generator while the client sends torques.  In each cycle
the motion callback is called first. -/
def controlTorquesWithMotion {type : MotionType}
    (torqueCallback : Callback credit Tick (Step Torques))
    (motionCallback : Callback credit Tick (Step (Target type))) (r : Robot) (m : σ) :
    Except RobotError Unit × σ × Robot :=
  let steering := (motionCallback.onEngine.both torqueCallback.onEngine).map fun tick steps =>
    .ok (together tick steps)
  steer .external type.mode steering r m

end Robot
end ArmControl
