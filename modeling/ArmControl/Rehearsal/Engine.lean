import ArmControl.ControlLoop
import ArmControl.Rehearsal.Stage

/-!
# Rehearsing the engine

The steps are the operations of the engine, and control loops whose callback reads its answers from
a list; at the end of the list it stops.
-/

namespace ArmControl.Rehearsal

/-- An answer of a scripted loop. -/
inductive LoopReaction
  | stop
  | fail (err : SessionError)
  | proceed (command : LoopCommand)
deriving DecidableEq, Repr

def LoopReaction.answer : LoopReaction → Except SessionError (Step LoopCommand)
  | stop => .ok .stop
  | fail err => .error err
  | proceed command => .ok (.proceed command)

inductive EngineStep
  | outside (happening : Happening)
  | shutdown
  | update (motion : Option MotionCommand) (torques : Option Torques)
  | startGenerator (type : MotionType)
  | stopGenerator
  | setController (mode : ControllerMode)
  | startMotion (controller : ControllerMode) (motion : MotionMode) (path goal : Deviation)
  /-- Without an id, the motion is the one started last. -/
  | finishMotion (id : Option UInt32) (motion : Option MotionCommand) (torques : Option Torques)
  | cancelMotion
  | loop (controller : ControllerMode) (motion : MotionMode) (script : List LoopReaction)

inductive EngineAnswer
  | done
  /-- The client's waits are at an end. -/
  | isShutdown
  | state (state : Option State)
  | motion (id : UInt32)
  | loop (result : Except SessionError Unit) (ticks : List Tick)
  | failed (err : SessionError)

def EngineAnswer.ofUnit : Except SessionError Unit → EngineAnswer
  | .ok () => done
  | .error err => failed err

/-- The engine, and the motion that was started last. -/
structure EngineStand where
  engine : Engine
  lastMotion : UInt32 := 0

/-- A callback that reads its answers from a list, and notes what it is shown. -/
def scriptedSteering :
    ControlLoop.Steering (fun _ : List LoopReaction × List Tick => 0) :=
  .ofPure fun tick (script, ticks) =>
    ((script.head?.getD .stop).answer, (script.tail, ticks ++ [tick]))

def EngineStep.run (s : EngineStand) : EngineStep → EngineAnswer × EngineStand
  | outside happening => (.done, { s with engine := s.engine.witness [happening] })
  | shutdown => (.isShutdown, { s with engine := s.engine.witness [.say [.shutdown]] })
  | update motion torques =>
    match s.engine.update motion torques with
    | (.ok state, engine) => (.state state, { s with engine })
    | (.error err, engine) => (.failed err, { s with engine })
  | startGenerator type =>
    let (result, engine) := s.engine.startGenerator type
    (.ofUnit result, { s with engine })
  | stopGenerator =>
    let (result, engine) := s.engine.stopGenerator
    (.ofUnit result, { s with engine })
  | setController mode =>
    let (result, engine) := s.engine.setController mode
    (.ofUnit result, { s with engine })
  | startMotion controller motion path goal =>
    match s.engine.startMotion controller motion path goal with
    | (.ok id, engine) => (.motion id, { engine, lastMotion := id })
    | (.error err, engine) => (.failed err, { s with engine })
  | finishMotion id motion torques =>
    let (result, engine) := s.engine.finishMotion (id.getD s.lastMotion) motion torques
    (.ofUnit result, { s with engine })
  | cancelMotion => (.done, { s with engine := s.engine.cancelMotion })
  | loop controller motion script =>
    let (result, (_, ticks), engine) :=
      ControlLoop.run controller motion scriptedSteering s.engine (script, [])
    (.loop result ticks, { s with engine })

/-- Makes an engine of the link and plays steps on it. -/
def playEngine (stage : Stage) (settings : Settings) (steps : List EngineStep) :
    Except SessionError Unit × Session × List (EngineAnswer × EngineStand × EngineStand) :=
  match Session.handshake stage.link with
  | (.error err, s) => (.error err, s, [])
  | (.ok (), s) =>
    let engine := Engine.start s settings (.ofSettings settings)
    (.ok (), s, play (fun step s => step.run s) steps { engine })

end ArmControl.Rehearsal
