import ArmControl.Engine.Supply

/-!
# One control cycle

`Engine.update` is one cycle of control: it answers the last state with a command, if there is
something to send, and waits for the next state.  An error that was found while the engine could not
raise it is raised first, and then nothing is sent or received.

While the motion generator comes to rest a command is sent in every cycle, with its `finished` flag
set; without a new one the last command is sent again.
-/

namespace ArmControl.Engine

/-! ### Waiting for a state -/

/-- A state ends the wait; a reply that nobody waits for is handled. -/
def judgeState : Judge (Option State)
  | .state s, m =>
    match m.observe s.motionMode with
    | (.error err, m) => (some (.error err), m)
    | (.ok (), m) => (some (.ok (some s)), m)
  | .reply header reply, m =>
    match m.handle header reply with
    | (.error err, m) => (some (.error err), m)
    | (.ok (), m) => (none, m)

/-- Waits for the next state; none follows once the far end has closed the channel. -/
def poll (e : Engine) : Except SessionError (Option State) × Engine := e.wait judgeState (.ok none)

theorem poll_length_lt {e e' : Engine} {s : State} (h : e.poll = (.ok (some s), e')) :
    e'.link.pending.length < e.link.pending.length :=
  wait_length_lt h (by simp)

theorem poll_supply_lt {e e' : Engine} {s : State} (h : e.poll = (.ok (some s), e')) :
    e'.supply < e.supply :=
  wait_supply_lt h (by simp)

/-! ### Sending a command -/

/-- The command that answers a state: what is given, or else what was sent last if the generator
comes to rest, or else nothing in particular. -/
def compose (s : State) (stopping : Bool) (last : Option Command) (motion : Option MotionCommand)
    (torques : Option Torques) : Command :=
  let previous := if stopping then last else none
  let unasked := if stopping then MotionCommand.hold s else .neutral
  let motion := motion.getD ((previous.map Command.motion).getD unasked)
  { messageId := s.messageId
    motion := if stopping then motion.finish else motion
    torques := torques.getD ((previous.map Command.torques).getD Joints.zero) }

/-- Sends a command in answer to the last state, if there is one. -/
def sendCommand (motion : Option MotionCommand) (torques : Option Torques) (e : Engine) :
    Except SessionError Unit × Engine :=
  match e.lastState with
  | none => (.ok (), e)
  | some s =>
    let command := compose s (e.motion.status = .stopping) e.motion.lastCommand motion torques
    match e.link.sendDatagram command.encode with
    | (.error .noPeer, link) => (.ok (), e.withLink link)
    | (.error err, link) => (.error (.link err), e.withLink link)
    | (.ok (), link) =>
      let e := (e.withLink link).count Metrics.countCommand
      (.ok (), e.withMotion { e.motion with lastCommand := some command })

theorem sendCommand_supply (motion : Option MotionCommand) (torques : Option Torques) (e : Engine) :
    (e.sendCommand motion torques).2.supply = e.supply := by
  unfold sendCommand
  split
  · rfl
  · rename_i s hs
    have h := e.link.sendDatagram_supply
      (compose s (e.motion.status = .stopping) e.motion.lastCommand motion torques).encode
    simp only
    split <;> (rename_i hsend; rw [hsend] at h; exact h)

/-! ### The cycle -/

/-- One cycle of control. -/
def update (motion : Option MotionCommand) (torques : Option Torques) (e : Engine) :
    Except SessionError (Option State) × Engine :=
  match e.motion.deferred with
  | some err => (.error err, e.withMotion { e.motion with deferred := none })
  | none =>
    if motion.isSome || torques.isSome || e.motion.status = .stopping then
      match e.sendCommand motion torques with
      | (.error err, e) => (.error err, e)
      | (.ok (), e) => e.poll
    else e.poll

theorem update_supply_lt {motion : Option MotionCommand} {torques : Option Torques}
    {e e' : Engine} {s : State} (h : e.update motion torques = (.ok (some s), e')) :
    e'.supply < e.supply := by
  unfold update at h
  split at h
  · simp at h
  · split at h
    · have hsend := e.sendCommand_supply motion torques
      split at h
      · simp at h
      · rename_i e₁ h₁
        rw [h₁] at hsend
        have := poll_supply_lt h
        simp only at hsend
        omega
    · exact poll_supply_lt h

end ArmControl.Engine
