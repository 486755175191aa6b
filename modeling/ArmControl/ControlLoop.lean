import ArmControl.Engine.Callback

/-!
# The control loop

A control loop runs one motion from its start to its end.  In every cycle it shows the newest state
to the user's callback, which answers with the next command or asks to stop.  After the stop the
last command is sent until the arm has come to rest.  When anything goes wrong once the motion has
started, the motion is cancelled and the error returned.

Commands that are not finite are refused before they are sent.
-/

namespace ArmControl

/-- What a callback answers in one cycle. -/
inductive Step (α : Type)
  /-- Go on with this value. -/
  | proceed (value : α)
  | stop
deriving DecidableEq, Repr, Inhabited

namespace Step

variable {α β : Type}

def isStop : Step α → Bool
  | proceed _ => false
  | stop => true

def map (f : α → β) : Step α → Step β
  | proceed value => proceed (f value)
  | stop => stop

end Step

/-- What a control loop shows to its callback. -/
structure Tick where
  state : State
  /-- The milliseconds since the state shown before; zero for the first one. -/
  elapsed : Nat
deriving DecidableEq, Repr, Inhabited

namespace Tick

/-- The milliseconds from one state to the next: the control period. -/
def period : Nat := 1

/-- The milliseconds between two states, as far as they can be told. -/
def between (previous current : UInt64) : Nat :=
  period * min (current.toNat - previous.toNat) (UInt32.size - 1)

end Tick

/-- The command of one cycle. -/
structure LoopCommand where
  motion : Option MotionCommand := none
  torques : Option Torques := none
deriving DecidableEq, Repr, Inhabited

namespace LoopCommand

/-- Refuses values that are not finite. -/
def validate (c : LoopCommand) : Except SessionError Unit :=
  if c.motion.any (fun m => !m.isFinite) then .error (.command .motionNotFinite)
  else if c.torques.any (fun t => !t.isFinite) then .error (.command .torquesNotFinite)
  else .ok ()

end LoopCommand

/-- Raises the priority of the control thread if the settings insist on that. -/
def Engine.raisePriority (e : Engine) : Except SessionError Unit :=
  e.settings.realtime.apply e.clock.priority

theorem Engine.raisePriority_of_ignore {e : Engine} (h : e.settings.realtime = .ignore) :
    e.raisePriority = .ok () := by
  rw [raisePriority, h, Realtime.apply]

/-- Without the priority that the settings insist on there is one kind of error. -/
theorem Engine.raisePriority_cases (e : Engine) :
    e.raisePriority = .ok () ∨ ∃ cause, e.raisePriority = .error (.realtime cause) := by
  unfold raisePriority
  cases e.settings.realtime with
  | ignore => exact .inl rfl
  | enforce =>
    cases e.clock.priority with
    | unsupported => exact .inr ⟨_, rfl⟩
    | raised => exact .inl rfl
    | denied cause => exact .inr ⟨_, rfl⟩

namespace ControlLoop

variable {σ : Type} {credit : σ → Nat}

/-- What steers a control loop. -/
abbrev Steering (credit : σ → Nat) := Callback credit Tick (Except SessionError (Step LoopCommand))

/-- The cycles of a motion, from state `s` on; `last` is the last command of the callback. -/
def cycles (steering : Steering credit) (motion : UInt32) (s : State) (previous : UInt64)
    (last : LoopCommand) (e : Engine) (m : σ) : Except SessionError Unit × σ × Engine :=
  match _c : steering.call ⟨s, Tick.between previous s.messageId⟩ e m with
  | (.error err, m₁, e₁) => (.error err, m₁, e₁)
  | (.ok .stop, m₁, e₁) =>
    let (result, e₂) := e₁.finishMotion motion last.motion last.torques
    (result, m₁, e₂)
  | (.ok (.proceed command), m₁, e₁) =>
    match command.validate with
    | .error err => (.error err, m₁, e₁)
    | .ok () =>
      match _u : e₁.update command.motion command.torques with
      | (.ok (some s'), e₂) => cycles steering motion s' s.messageId command e₂ m₁
      | (.ok none, e₂) => (.error .closed, m₁, e₂)
      | (.error err, e₂) => (.error err, m₁, e₂)
termination_by e.supply + credit m
decreasing_by
  have h₁ := steering.call_supply_le ⟨s, Tick.between previous s.messageId⟩ e m
  have h₂ := Engine.update_supply_lt _u
  rw [_c] at h₁
  simp only at h₁
  omega

/-- The cycles of a motion that has just been confirmed. -/
def spin (steering : Steering credit) (motion : UInt32) (e : Engine) (m : σ) :
    Except SessionError Unit × σ × Engine :=
  match e.lastState with
  | some s => cycles steering motion s s.messageId {} e m
  | none =>
    match e.update none none with
    | (.ok (some s), e) => cycles steering motion s s.messageId {} e m
    | (.ok none, e) => (.error .closed, m, e)
    | (.error err, e) => (.error err, m, e)

/-- Runs a motion with this controller and motion generator until the callback stops it or an error
ends it. -/
def run (controller : ControllerMode) (motion : MotionMode) (steering : Steering credit)
    (e : Engine) (m : σ) : Except SessionError Unit × σ × Engine :=
  match e.raisePriority with
  | .error err => (.error err, m, e)
  | .ok () =>
    match e.startMotion controller motion e.settings.path e.settings.goal with
    | (.error err, e) => (.error err, m, e)
    | (.ok id, e) =>
      match spin steering id e m with
      | (.ok (), m, e) => (.ok (), m, e)
      | (.error err, m, e) => (.error err, m, e.cancelMotion)

end ControlLoop
end ArmControl
