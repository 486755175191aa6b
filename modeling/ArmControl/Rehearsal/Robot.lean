import ArmControl.Rehearsal.Stage
import ArmControl.Robot.Busy

/-!
# Rehearsing the robot

The steps are the operations of a robot.  Their callbacks read their answers from lists, one
`Reaction` for each call; while a callback runs, the inner steps of its reaction are played.  An
inner step may try an operation of the robot too, and is refused because the robot is busy; so the
inner steps of a callback come to no more than the happenings among them (`InnerStep.runAll_eq`).
-/

namespace ArmControl.Rehearsal

/-- How the robot looks from outside at some moment. -/
structure RobotView where
  slot : Slot
  isRunning : Bool
  latest : Option State
  metrics : Metrics
  /-- What was sent since the moment before. -/
  sent : Sent

/-- The robot as it looks now, with what was sent since the journal had the length `mark`. -/
def RobotView.of (mark : Nat) (r : Robot) : RobotView :=
  ⟨r.slot, r.isRunning, r.latestState, r.metrics, Sent.since mark r.engine.link⟩

inductive RobotAnswer
  | done
  | state (state : State)
  | latest (state : Option State)
  /-- A handle was given up. -/
  | dropped
  | failed (err : RobotError)

namespace RobotAnswer

def ofUnit : Except RobotError Unit → RobotAnswer
  | .ok () => done
  | .error err => failed err

def ofState : Except RobotError State → RobotAnswer
  | .ok s => state s
  | .error err => failed err

end RobotAnswer

/-! ### Inner steps -/

/-- A step that is played while a callback runs. -/
inductive InnerStep
  | outside (happening : Happening)
  | latest
  | dropHandle
  | read
  | readOnce
  | controlIdle (controller : ControllerMode)
  | controlMotion (type : MotionType) (controller : ControllerMode)
  | controlTorques
  | controlTorquesWithMotion (type : MotionType)
deriving Repr

/-- A callback that ends its operation at once. -/
def quit {ι ρ : Type} (answer : ρ) : Robot.Callback (fun _ : Unit => 0) ι ρ :=
  .ofPure fun _ m => (answer, m)

def InnerStep.run (r : Robot) : InnerStep → RobotAnswer × Robot
  | outside happening => (.done, r.witness [happening])
  | latest => (.latest r.latestState, r)
  | dropHandle => (.dropped, r)
  | read =>
    let (result, _, r) := r.read (quit false) ()
    (.ofUnit result, r)
  | readOnce =>
    let (result, r) := r.readOnce
    (.ofState result, r)
  | controlIdle controller =>
    let (result, _, r) := r.controlIdle controller (quit false) ()
    (.ofUnit result, r)
  | controlMotion type controller =>
    let (result, _, r) := r.controlMotion controller (quit (Step.stop : Step (Target type))) ()
    (.ofUnit result, r)
  | controlTorques =>
    let (result, _, r) := r.controlTorques (quit .stop) ()
    (.ofUnit result, r)
  | controlTorquesWithMotion type =>
    let (result, _, r) :=
      r.controlTorquesWithMotion (quit .stop) (quit (Step.stop : Step (Target type))) ()
    (.ofUnit result, r)

/-- What happens on the link in an inner step. -/
def InnerStep.happenings : InnerStep → List Happening
  | outside happening => [happening]
  | _ => []

theorem InnerStep.run_eq {r : Robot} (h : r.slot ≠ none) (step : InnerStep) :
    (step.run r).2 = r.witness step.happenings := by
  obtain ⟨holder, hr⟩ := Option.ne_none_iff_exists'.1 h
  cases step <;>
    simp [run, happenings, Robot.read_of_busy hr, Robot.readOnce_of_busy hr,
      Robot.controlIdle_of_busy hr, Robot.controlMotion_of_busy hr, Robot.controlTorques_of_busy hr,
      Robot.controlTorquesWithMotion_of_busy hr, Robot.witness]

/-- The report on an inner step. -/
structure InnerReport where
  answer : RobotAnswer
  view : RobotView

/-- The length of the journal at the last report, after a step; giving up a handle is reported without
what was sent. -/
def InnerStep.newMark (mark : Nat) (r : Robot) : InnerStep → Nat
  | dropHandle => mark
  | _ => r.engine.link.journal.length

/-- Plays inner steps; `mark` is the length of the journal at the last report. -/
def InnerStep.runAll (mark : Nat) (r : Robot) : List InnerStep → List InnerReport × Nat × Robot
  | [] => ([], mark, r)
  | step :: rest =>
    let (answer, r) := step.run r
    let (reports, mark', r') := runAll (step.newMark mark r) r rest
    (⟨answer, .of mark r⟩ :: reports, mark', r')

/-- What happens on the link in some inner steps. -/
def InnerStep.allHappenings (steps : List InnerStep) : List Happening :=
  steps.flatMap InnerStep.happenings

theorem InnerStep.runAll_eq {r : Robot} (h : r.slot ≠ none) (mark : Nat) (steps : List InnerStep) :
    (runAll mark r steps).2.2 = r.witness (allHappenings steps) := by
  induction steps generalizing r mark with
  | nil => rfl
  | cons step rest ih =>
    have hrun := run_eq h step
    have hslot : (step.run r).2.slot ≠ none := by rw [hrun]; exact h
    simp only [runAll]
    rw [ih hslot, hrun]
    simp [Robot.witness, allHappenings, Engine.witness_append]

/-! ### Scripted callbacks -/

/-- The answer of a callback, and the inner steps that are played and reported before it is given, if
any are asked for. -/
structure Reaction (α : Type) where
  answer : α
  inner : Option (List InnerStep) := none

/-- What happens on the link in the inner steps of a reaction. -/
def Reaction.happenings {α : Type} (reaction : Reaction α) : List Happening :=
  InnerStep.allHappenings (reaction.inner.getD [])

/-- How many events some reactions may cause. -/
def Reaction.cost {α : Type} : List (Reaction α) → Nat
  | [] => 0
  | reaction :: rest => Happening.totalCost reaction.happenings + cost rest

/-- Which callback of an operation was called. -/
inductive Role
  | read
  | motion
  | torque
deriving DecidableEq, Repr

/-- The report on one call of a callback. -/
structure Call where
  role : Role
  state : State
  /-- The time since the last call; a reader is not told. -/
  elapsed : Option Nat
  slot : Slot
  isRunning : Bool
  inner : Option (List InnerReport)

/-- What the scripted callbacks of an operation remember. -/
structure Prompt (α β : Type) where
  script : List (Reaction α) := []
  torqueScript : List (Reaction β) := []
  calls : List Call := []
  /-- The length of the journal at the last report. -/
  mark : Nat

namespace Prompt

variable {α β γ ι : Type}

/-- How many events the reactions to come may cause. -/
def credit (p : Prompt α β) : Nat := Reaction.cost p.script + Reaction.cost p.torqueScript

/-- The next reaction of the first callback. -/
def next (p : Prompt α β) : Option (Reaction α) × Prompt α β :=
  match p.script with
  | [] => (none, p)
  | reaction :: script => (some reaction, { p with script })

/-- The next reaction of the torque callback. -/
def nextTorque (p : Prompt α β) : Option (Reaction β) × Prompt α β :=
  match p.torqueScript with
  | [] => (none, p)
  | reaction :: torqueScript => (some reaction, { p with torqueScript })

/-- How many events the inner steps of a reaction may cause. -/
def costOf (reaction : Option (Reaction γ)) : Nat :=
  Happening.totalCost (InnerStep.allHappenings ((reaction.bind Reaction.inner).getD []))

theorem next_credit (p : Prompt α β) : costOf p.next.1 + p.next.2.credit ≤ p.credit := by
  obtain ⟨script, torqueScript, calls, mark⟩ := p
  cases script with
  | nil => simp [next, costOf, credit, InnerStep.allHappenings, Happening.totalCost]
  | cons reaction rest =>
    simp only [next, costOf, credit, Reaction.cost, Reaction.happenings, Option.bind_some]
    omega

theorem nextTorque_credit (p : Prompt α β) :
    costOf p.nextTorque.1 + p.nextTorque.2.credit ≤ p.credit := by
  obtain ⟨script, torqueScript, calls, mark⟩ := p
  cases torqueScript with
  | nil => simp [nextTorque, costOf, credit, InnerStep.allHappenings, Happening.totalCost]
  | cons reaction rest =>
    simp only [nextTorque, costOf, credit, Reaction.cost, Reaction.happenings, Option.bind_some]
    omega

/-- A callback that reads its reactions off a list, and gives `silent` at its end. -/
def callback (role : Role) (shown : ι → State × Option Nat) (silent : γ)
    (pick : Prompt α β → Option (Reaction γ) × Prompt α β)
    (pick_credit : ∀ p, costOf (pick p).1 + (pick p).2.credit ≤ p.credit) :
    Robot.Callback (credit : Prompt α β → Nat) ι γ where
  call input r p :=
    let (reaction, p) := pick p
    let asked := reaction.bind Reaction.inner
    let (reports, mark, r) := InnerStep.runAll p.mark r (asked.getD [])
    let call : Call :=
      ⟨role, (shown input).1, (shown input).2, r.slot, r.isRunning, asked.map fun _ => reports⟩
    ((reaction.map Reaction.answer).getD silent, { p with calls := p.calls ++ [call], mark }, r)
  outside _ _ p h :=
    ⟨InnerStep.allHappenings (((pick p).1.bind Reaction.inner).getD []),
      InnerStep.runAll_eq h _ _, pick_credit p⟩

/-- A scripted reader. -/
def reader : Robot.Callback (credit : Prompt Bool β → Nat) State Bool :=
  callback .read (fun s => (s, none)) false next next_credit

/-- A scripted motion callback. -/
def mover : Robot.Callback (credit : Prompt (Step γ) β → Nat) Tick (Step γ) :=
  callback .motion (fun tick => (tick.state, some tick.elapsed)) .stop next next_credit

/-- A scripted torque callback. -/
def torquer : Robot.Callback (credit : Prompt α (Step γ) → Nat) Tick (Step γ) :=
  callback .torque (fun tick => (tick.state, some tick.elapsed)) .stop nextTorque nextTorque_credit

end Prompt

/-! ### Steps -/

inductive RobotStep
  | outside (happening : Happening)
  | latest
  | dropHandle
  | readOnce
  | read (script : List (Reaction Bool))
  | controlIdle (controller : ControllerMode) (script : List (Reaction Bool))
  | controlMotion (type : MotionType) (controller : ControllerMode)
      (script : List (Reaction (Step (Target type))))
  | controlTorques (torqueScript : List (Reaction (Step Torques)))
  | controlTorquesWithMotion (type : MotionType) (script : List (Reaction (Step (Target type))))
      (torqueScript : List (Reaction (Step Torques)))

/-- The report on a step. -/
structure RobotReport where
  answer : RobotAnswer
  calls : List Call
  view : RobotView

/-- The robot, and the length of the journal at the last report. -/
structure RobotStand where
  robot : Robot
  mark : Nat

/-- Reports on an operation with scripted callbacks. -/
def RobotReport.scripted {α β : Type} (done : Except RobotError Unit × Prompt α β × Robot) :
    RobotReport × RobotStand :=
  let (result, p, r) := done
  (⟨.ofUnit result, p.calls, .of p.mark r⟩, ⟨r, r.engine.link.journal.length⟩)

/-- Reports on an operation without callbacks. -/
def RobotReport.plain (mark : Nat) (answer : RobotAnswer) (r : Robot) :
    RobotReport × RobotStand :=
  (⟨answer, [], .of mark r⟩, ⟨r, r.engine.link.journal.length⟩)

def RobotStep.run (s : RobotStand) : RobotStep → RobotReport × RobotStand
  | outside happening => RobotReport.plain s.mark .done (s.robot.witness [happening])
  | latest => RobotReport.plain s.mark (.latest s.robot.latestState) s.robot
  | dropHandle => (⟨.dropped, [], .of s.mark s.robot⟩, s)
  | readOnce =>
    let (result, r) := s.robot.readOnce
    RobotReport.plain s.mark (.ofState result) r
  | read script =>
    RobotReport.scripted (s.robot.read Prompt.reader ({ script, mark := s.mark } : Prompt Bool Unit))
  | controlIdle controller script =>
    RobotReport.scripted (s.robot.controlIdle controller Prompt.reader
      ({ script, mark := s.mark } : Prompt Bool Unit))
  | controlMotion type controller script =>
    RobotReport.scripted (s.robot.controlMotion controller Prompt.mover
      ({ script, mark := s.mark } : Prompt (Step (Target type)) Unit))
  | controlTorques torqueScript =>
    RobotReport.scripted (s.robot.controlTorques Prompt.torquer
      ({ torqueScript, mark := s.mark } : Prompt Unit (Step Torques)))
  | controlTorquesWithMotion type script torqueScript =>
    RobotReport.scripted (s.robot.controlTorquesWithMotion Prompt.torquer Prompt.mover
      ({ script, torqueScript, mark := s.mark } : Prompt (Step (Target type)) (Step Torques)))

/-- Makes a robot of the link and plays steps on it. -/
def playRobot (stage : Stage) (settings : Settings) (steps : List RobotStep) :
    Except RobotError Unit × Robot × List RobotReport :=
  match Robot.connect stage.link settings (.ofSettings settings) with
  | (.error err, r) => (.error err, r, [])
  | (.ok (), r) =>
    let stand : RobotStand := ⟨r, r.engine.link.journal.length⟩
    (.ok (), r, (play (fun step s => step.run s) steps stand).map (·.1))

end ArmControl.Rehearsal
