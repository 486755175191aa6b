import Mathlib.Data.Set.List
import ArmControl.Proofs.Dictation
import ArmControl.Proofs.Nesting

/-! # What an operation puts on the wire

The callbacks of an operation can be `transcribed`: whatever they are shown and answer is written
down beside their memory, and nothing else changes.  The transcript of an operation that steers a
motion, together with the journal, tells which commands were sent for which answers.

`operations_on_the_wire` states this for the three operations that steer motions, on a robot that
has done anything before.  A target replaces its own part of the command that holds the arm where it
is (`Target.Replaces`); torques come with no target; and two callbacks are called one after the
other in every cycle, the one for the motion first, and stop the motion if either of them stops.
Where there are no rounds, no motion has begun (`Robot.Unstarted`). -/

namespace ArmControl

/-! ### The part of a target -/

/-- The part of a command that a generator of this type follows. -/
def MotionCommand.part : (type : MotionType) → MotionCommand → Vector Binary64 type.width
  | .jointPosition, m => m.jointPositions
  | .jointVelocity, m => m.jointVelocities
  | .cartesianPosition, m => m.pose
  | .cartesianVelocity, m => m.twist

/-- The command `m'` is `m` with the target in its own part, and nothing else is changed. -/
structure Target.Replaces {type : MotionType} (t : Target type) (m m' : MotionCommand) : Prop where
  own : m'.part type = t.values
  others : ∀ other, other ≠ type → m'.part other = m.part other
  finished : m'.finished = m.finished

theorem Target.replaces_writeTo {type : MotionType} (t : Target type) (m : MotionCommand) :
    t.Replaces m (t.writeTo m) := by
  refine ⟨by cases type <;> rfl, fun other hother => ?_, by cases type <;> rfl⟩
  cases type <;> cases other <;> first | rfl | exact absurd rfl hother

/-! ### Transcripts -/

namespace Callback

variable {σ : Type} {credit : σ → Nat} {ι ρ ρ' κ : Type} {cb : Callback credit ι ρ}
  {log : σ → List κ} {note : ι → ρ → List κ} {note' : ι → ρ' → List κ}

/-- Whatever is called, `log` finds the note of the input and the answer added to the memory. -/
def Writes (log : σ → List κ) (note : ι → ρ → List κ) (cb : Callback credit ι ρ) : Prop :=
  ∀ input e m, log (cb.call input e m).2.1 = log m ++ note input (cb.call input e m).1

theorem Writes.both {second : Callback credit ι ρ'} (h : cb.Writes log note)
    (hsecond : second.Writes log note') :
    (cb.both second).Writes log fun input answers =>
      note input answers.1 ++ note' input answers.2 := by
  intro input e m
  simp only [Callback.both]
  rw [hsecond input _ _, h input e m, List.append_assoc]

/-- What was written and what was recorded tell of the same rounds. -/
def Accords (log : σ → List κ) (note : ι → ρ → List κ) (f : ι → ρ → ρ')
    (p : σ × List (Record ι ρ')) : Prop :=
  ∃ rounds : List (ι × ρ), log p.1 = rounds.flatMap (fun round => note round.1 round.2) ∧
    p.2.map (fun call => (call.input, call.answer)) =
      rounds.map fun round => (round.1, f round.1 round.2)

theorem Writes.keeps_accords (h : cb.Writes log note) (f : ι → ρ → ρ') :
    (cb.map f).recorded.Keeps (Accords log note f) := by
  rintro input e ⟨m, calls⟩ ⟨rounds, hlog, hcalls⟩
  refine ⟨rounds ++ [(input, (cb.call input e m).1)], ?_, ?_⟩
  · have hwritten : log ((cb.map f).recorded.call input e (m, calls)).2.1.1 = _ := h input e m
    rw [hwritten, hlog, List.flatMap_append]
    simp
  · have hrecorded : ((cb.map f).recorded.call input e (m, calls)).2.1.2 = calls ++
        [⟨input, f input (cb.call input e m).1, (cb.call input e m).2.2.link.journal⟩] := rfl
    rw [hrecorded, List.map_append, hcalls, List.map_append]
    rfl

end Callback

namespace Robot

variable {σ : Type} {credit : σ → Nat} {ι ρ κ : Type}

/-- The callback with a note of each call written down beside its memory. -/
def Callback.transcribed (cb : Callback credit ι ρ) (note : ι → ρ → κ) :
    Callback (fun p : σ × List κ => credit p.1) ι ρ where
  call input r p :=
    let (answer, m, r) := cb.call input r p.1
    (answer, (m, p.2 ++ [note input answer]), r)
  outside input r p := cb.outside input r p.1

theorem Callback.transcribed_erases (cb : Callback credit ι ρ) (note : ι → ρ → κ) :
    ArmControl.Callback.Erases (Prod.map id Prod.fst) (cb.transcribed note).onEngine cb.onEngine :=
  fun _ _ _ => rfl

theorem Callback.transcribed_writes (cb : Callback credit ι ρ) (note : ι → ρ → κ) :
    (cb.transcribed note).onEngine.Writes (fun p => p.2.2)
      fun input answer => [note input answer] :=
  fun _ _ _ => rfl

/-! ### A motion that is steered -/

open ControlLoop

variable {log : Operation × σ → List κ} {note : Tick → ρ → List κ} {f : Tick → ρ → Step LoopCommand}
  {cb : ArmControl.Callback (fun p : Operation × σ => credit p.2) Tick ρ} {r r' : Robot} {m m' : σ}
  {controller : ControllerMode} {motion : MotionMode} {result : Except RobotError Unit}

/-- A callback that steers a motion by the steps that `f` makes of its answers. -/
def steering (cb : ArmControl.Callback (fun p : Operation × σ => credit p.2) Tick ρ)
    (f : Tick → ρ → Step LoopCommand) : Steering fun p : Operation × σ => credit p.2 :=
  cb.map fun tick answer => .ok (f tick answer)

/-- In the operation that has led from `r` to `r'` the commands `said` were sent first, and after
the state `s` nothing but finishing commands with this target and these torques. -/
def Sends (r r' : Robot) (said : List Command) (s : State) (target : MotionCommand)
    (control : Torques) : Prop :=
  ∃ j : Journal, r'.engine.link.journal = r.engine.link.journal ++ j ∧
    Dictated r.engine said s target control j

/-- The operation that has led from `r` to `r'` has begun no motion: its thread was not given a
priority, or the start of the motion has failed. -/
def Unstarted (r r' : Robot) (controller : ControllerMode) (motion : MotionMode)
    (result : Except RobotError Unit) : Prop :=
  ∃ err, result = .error (.session err) ∧
    (r.engine.raisePriority = .error err ∧ r'.engine = r.engine ∨
      r.engine.startMotion controller motion r.engine.settings.path r.engine.settings.goal =
        (.error err, r'.engine))

/-- The transcript of a motion tells its rounds, of which there are some once it has begun.  All of
them but the last have gone on; if the last was a stop, it is known what was sent. -/
theorem steer_transcript (hwrites : cb.Writes log note) (hr : r.Quiescent)
    (hm : log (.controlling controller motion, m) = [])
    (h : r.steer controller motion (steering cb f) m = (result, m', r')) :
    ∃ op, ∃ rounds : List (Tick × ρ),
      log (op, m') = rounds.flatMap (fun round => note round.1 round.2) ∧
      (rounds = [] → r.Unstarted r' controller motion result) ∧
      (∀ round ∈ rounds.dropLast, ∃ command, f round.1 round.2 = .proceed command) ∧
      ∀ (said : List (Tick × LoopCommand)) (stopped : Tick),
        rounds.map (fun round => (round.1, f round.1 round.2)) =
          said.map (fun g => (g.1, .proceed g.2)) ++ [(stopped, .stop)] →
        r.Sends r' (spoken said) stopped.state ((lastSaid said).motion.getD (.hold stopped.state))
          (Engine.closing (lastSaid said).torques (spoken said).getLast?) := by
  -- what is known of the recorded calls is known of the notes, since both are of the same rounds
  let p : Operation × σ := (.controlling controller motion, m)
  have hkeeps : (steering cb f).recorded.Keeps _ := hwrites.keeps_accords _
  have haccords := run_keeps hkeeps controller motion r.engine (m := (p, [])) ⟨[], hm, rfl⟩
  have hplain := run_erase (steering cb f).recorded_erases controller motion r.engine (p, [])
  rcases hrun : run controller motion (steering cb f).recorded r.engine (p, []) with
    ⟨ran, ⟨⟨op, m₁⟩, calls⟩, e'⟩
  rw [hrun] at hplain haccords
  obtain ⟨rounds, hlog, hcalls⟩ := haccords
  rw [steer, operate_of_free hr.slot, hplain] at h
  simp only [Prod.mk.injEq] at h
  obtain ⟨rfl, rfl, rfl⟩ := h
  refine ⟨op, rounds, hlog, fun hnone => ?_, fun round hround => ?_, fun said stopped hsaid => ?_⟩
  · rw [hnone, List.map_nil, List.map_eq_nil_iff] at hcalls
    rcases recorded_run_cases hrun with ⟨-, err, rfl, hfailed⟩ |
      ⟨id, e₁, s, ran, e₂, -, -, -, hrounds, -⟩
    · exact ⟨err, rfl, hfailed⟩
    · obtain ⟨first, rest, hcons, -⟩ := hrounds.head
      cases hcons.symm.trans hcalls
  · have hmem : (round.1, Except.ok (f round.1 round.2)) ∈ calls.dropLast.map exchanged := by
      rw [List.map_dropLast, show calls.map exchanged = _ from hcalls, ← List.map_dropLast]
      exact List.mem_map_of_mem hround
    obtain ⟨call, hcall, heq⟩ := List.mem_map.1 hmem
    obtain ⟨command, hcommand⟩ := proceeds_of_run hrun call hcall
    obtain ⟨-, hanswer⟩ := Prod.mk.inj heq
    exact ⟨command, Except.ok.inj (hanswer.symm.trans hcommand)⟩
  · have hexchanged : calls.map exchanged =
        said.map (fun g => (g.1, .ok (.proceed g.2))) ++ [(stopped, .ok .stop)] := by
      have hmap := congrArg (List.map (Prod.map id (Except.ok : _ → Except SessionError _))) hsaid
      rw [List.map_append, List.map_map, List.map_map] at hmap
      exact hcalls.trans hmap
    obtain ⟨j, hpassage, hdictated⟩ := run_stopped hr.idle hrun hexchanged
    exact ⟨j, hpassage.journal, hdictated⟩

/-! ### The operations -/

theorem spoken_map {γ : Type} {goals : List γ} {tick : γ → Tick} {command : γ → LoopCommand}
    {c : γ → Command} (h : ∀ g, (command g).answerTo (tick g).state = some (c g)) :
    spoken (goals.map fun g => (tick g, command g)) = goals.map c := by
  rw [spoken, List.filterMap_map, ← List.filterMap_eq_map]
  exact congrArg (goals.filterMap ·) (funext h)

theorem lastSaid_map {γ : Type} (goals : List γ) (tick : γ → Tick) (command : γ → LoopCommand) :
    lastSaid (goals.map fun g => (tick g, command g)) = (goals.getLast?.map command).getD {} := by
  rw [lastSaid, List.getLast?_map, Option.map_map]
  rfl

/-- Rounds of which all but the last have gone on, with the goals that they had. -/
theorem exists_goals {γ : Type} {rounds : List (Tick × ρ)} {round : γ → Tick × ρ}
    (h : ∀ x ∈ rounds.dropLast, ∃ g, round g = x) :
    rounds = [] ∨ ∃ (goals : List γ) (tick : Tick) (answer : ρ),
      rounds = goals.map round ++ [(tick, answer)] := by
  by_cases hnone : rounds = []
  · exact .inl hnone
  · have hrange : rounds.dropLast ∈ Set.range (List.map round) := by
      rw [Set.range_list_map]
      exact h
    obtain ⟨goals, hgoals⟩ := hrange
    exact .inr ⟨goals, _, _, by rw [hgoals, Prod.mk.eta, List.dropLast_append_getLast hnone]⟩

/-- The rounds of an operation whose callbacks go on with what `round` makes of some goal, for which
`command` is asked for and `c` sent.  After a stop the arm is brought to rest with the target and
the torques that belong to the last goal. -/
theorem steer_goals {γ : Type} {round : γ → Tick × ρ} {command : γ → LoopCommand} {c : γ → Command}
    (target : Option γ → State → MotionCommand) (control : Option γ → Torques)
    (hround : ∀ x said, f x.1 x.2 = .proceed said → ∃ g, round g = x)
    (hcommand : ∀ g, f (round g).1 (round g).2 = .proceed (command g))
    (hc : ∀ g, (command g).answerTo (round g).1.state = some (c g))
    (htarget : ∀ last s, ((last.map command).getD {}).motion.getD (.hold s) = target last s)
    (hcontrol : ∀ last : Option γ,
      Engine.closing ((last.map command).getD {}).torques (last.map c) = control last)
    (hwrites : cb.Writes log note) (hr : r.Quiescent)
    (hm : log (.controlling controller motion, m) = [])
    (h : r.steer controller motion (steering cb f) m = (result, m', r')) :
    ∃ op, ∃ rounds : List (Tick × ρ), log (op, m') = rounds.flatMap (fun x => note x.1 x.2) ∧
      (rounds = [] ∧ r.Unstarted r' controller motion result ∨
        ∃ (goals : List γ) (tick : Tick) (answer : ρ),
        rounds = goals.map round ++ [(tick, answer)] ∧
        (f tick answer = .stop → r.Sends r' (goals.map c) tick.state
          (target goals.getLast? tick.state) (control goals.getLast?))) := by
  obtain ⟨op, rounds, hlog, hnone, hgoes, hstop⟩ := steer_transcript hwrites hr hm h
  refine ⟨op, rounds, hlog, ?_⟩
  have hgoals : ∀ x ∈ rounds.dropLast, ∃ g, round g = x := fun x hx => by
    obtain ⟨said, hsaid⟩ := hgoes x hx
    exact hround x said hsaid
  refine (exists_goals hgoals).imp (fun heq => ⟨heq, hnone heq⟩) ?_
  rintro ⟨goals, tick, answer, rfl⟩
  refine ⟨goals, tick, answer, rfl, fun hanswer => ?_⟩
  have hsends := hstop (goals.map fun g => ((round g).1, command g)) tick ?_
  · rwa [spoken_map hc, lastSaid_map, List.getLast?_map, htarget, hcontrol] at hsends
  · rw [List.map_append, List.map_map, List.map_map, List.map_singleton, hanswer]
    congr 1
    exact List.map_congr_left fun g _ => by rw [Function.comp_apply, hcommand]; rfl

section

variable {type : MotionType} {log : σ → List κ}

/-- Rounds in which targets are asked for, of which there are some once the motion has begun.  All
but the last go on; each of them sends the command that holds the arm where it is shown, with the
target in it and without torques.  After a stop the last of these commands is sent until the arm
rests, or where there is none, to hold the arm. -/
def TargetRounds (controller : ControllerMode) (r r' : Robot) (result : Except RobotError Unit)
    (rounds : List (Tick × Step (Target type))) : Prop :=
  rounds = [] ∧ r.Unstarted r' controller type.mode result ∨
  ∃ (goals : List (Tick × Target type)) (tick : Tick) (step : Step (Target type)),
    rounds = goals.map (fun g => (g.1, .proceed g.2)) ++ [(tick, step)] ∧
    (step = .stop → r.Sends r'
      (goals.map fun g => ⟨g.1.state.messageId, g.2.command g.1.state, Joints.zero⟩) tick.state
      ((goals.getLast?.map fun g => g.2.command g.1.state).getD (.hold tick.state)) Joints.zero)

/-- Rounds in which torques alone are asked for.  The commands have no target; after a stop the last
torques are sent until the arm rests, to hold the arm where it was at the stop. -/
def TorqueRounds (r r' : Robot) (result : Except RobotError Unit)
    (rounds : List (Tick × Step Torques)) : Prop :=
  rounds = [] ∧ r.Unstarted r' .external .idle result ∨
  ∃ (goals : List (Tick × Torques)) (tick : Tick) (step : Step Torques),
    rounds = goals.map (fun g => (g.1, .proceed g.2)) ++ [(tick, step)] ∧
    (step = .stop → r.Sends r' (goals.map fun g => ⟨g.1.state.messageId, .neutral, g.2⟩)
      tick.state (.hold tick.state) ((goals.getLast?.map Prod.snd).getD Joints.zero))

/-- Rounds in which targets and torques are asked for.  A round goes on when both answers do, and is
a stop when either is. -/
def TwinRounds (r r' : Robot) (result : Except RobotError Unit)
    (rounds : List (Tick × Step (Target type) × Step Torques)) : Prop :=
  rounds = [] ∧ r.Unstarted r' .external type.mode result ∨
  ∃ (goals : List (Tick × Target type × Torques)) (tick : Tick)
      (steps : Step (Target type) × Step Torques),
    rounds = goals.map (fun g => (g.1, .proceed g.2.1, .proceed g.2.2)) ++ [(tick, steps)] ∧
    (steps.1 = .stop ∨ steps.2 = .stop → r.Sends r'
      (goals.map fun g => ⟨g.1.state.messageId, g.2.1.command g.1.state, g.2.2⟩) tick.state
      ((goals.getLast?.map fun g => g.2.1.command g.1.state).getD (.hold tick.state))
      ((goals.getLast?.map fun g => g.2.2).getD Joints.zero))

theorem controlMotion_rounds {cb : Callback credit Tick (Step (Target type))}
    {note : Tick → Step (Target type) → List κ}
    (hwrites : cb.onEngine.Writes (fun p => log p.2) note) (hr : r.Quiescent) (hm : log m = [])
    (h : r.controlMotion controller cb m = (result, m', r')) :
    ∃ rounds : List (Tick × Step (Target type)),
      log m' = rounds.flatMap (fun x => note x.1 x.2) ∧
      TargetRounds controller r r' result rounds := by
  let f (tick : Tick) (step : Step (Target type)) : Step LoopCommand :=
    step.map fun target => { motion := some (target.command tick.state) }
  have hround (x : Tick × Step (Target type)) (said : LoopCommand)
      (hsaid : f x.1 x.2 = .proceed said) : ∃ g : Tick × Target type, (g.1, .proceed g.2) = x := by
    obtain ⟨tick, target | _⟩ := x
    · exact ⟨(tick, target), rfl⟩
    · cases hsaid
  have hsteer : r.steer controller type.mode (steering cb.onEngine f) m = (result, m', r') := h
  obtain ⟨op, rounds, hlog, hrounds⟩ := steer_goals
    (fun last s => (last.map fun g => g.2.command g.1.state).getD (.hold s))
    (fun _ => Joints.zero) hround (fun _ => rfl) (fun _ => rfl)
    (fun last s => by cases last <;> rfl) (fun last => by cases last <;> rfl) hwrites hr hm hsteer
  refine ⟨rounds, hlog, hrounds.imp_right ?_⟩
  rintro ⟨goals, tick, step, hgoals, hstop⟩
  exact ⟨goals, tick, step, hgoals, fun hstep => hstop (hstep ▸ rfl)⟩

theorem controlTorques_rounds {cb : Callback credit Tick (Step Torques)}
    {note : Tick → Step Torques → List κ}
    (hwrites : cb.onEngine.Writes (fun p => log p.2) note) (hr : r.Quiescent) (hm : log m = [])
    (h : r.controlTorques cb m = (result, m', r')) :
    ∃ rounds : List (Tick × Step Torques),
      log m' = rounds.flatMap (fun x => note x.1 x.2) ∧ TorqueRounds r r' result rounds := by
  let f (_ : Tick) (step : Step Torques) : Step LoopCommand :=
    step.map fun torques => { torques := some torques }
  have hround (x : Tick × Step Torques) (said : LoopCommand) (hsaid : f x.1 x.2 = .proceed said) :
      ∃ g : Tick × Torques, (g.1, .proceed g.2) = x := by
    obtain ⟨tick, torques | _⟩ := x
    · exact ⟨(tick, torques), rfl⟩
    · cases hsaid
  have hsteer : r.steer .external .idle (steering cb.onEngine f) m = (result, m', r') := h
  obtain ⟨op, rounds, hlog, hrounds⟩ := steer_goals (fun _ s => .hold s)
    (fun last => (last.map Prod.snd).getD Joints.zero) hround (fun _ => rfl)
    (fun _ => rfl) (fun last s => by cases last <;> rfl) (fun last => by cases last <;> rfl)
    hwrites hr hm hsteer
  refine ⟨rounds, hlog, hrounds.imp_right ?_⟩
  rintro ⟨goals, tick, step, hgoals, hstop⟩
  exact ⟨goals, tick, step, hgoals, fun hstep => hstop (hstep ▸ rfl)⟩

theorem controlTorquesWithMotion_rounds {torqueCallback : Callback credit Tick (Step Torques)}
    {motionCallback : Callback credit Tick (Step (Target type))}
    {noteTorques : Tick → Step Torques → List κ} {noteMotion : Tick → Step (Target type) → List κ}
    (htorques : torqueCallback.onEngine.Writes (fun p => log p.2) noteTorques)
    (hmotion : motionCallback.onEngine.Writes (fun p => log p.2) noteMotion) (hr : r.Quiescent)
    (hm : log m = [])
    (h : r.controlTorquesWithMotion torqueCallback motionCallback m = (result, m', r')) :
    ∃ rounds : List (Tick × Step (Target type) × Step Torques),
      log m' = rounds.flatMap (fun x => noteMotion x.1 x.2.1 ++ noteTorques x.1 x.2.2) ∧
      TwinRounds r r' result rounds := by
  have hround (x : Tick × Step (Target type) × Step Torques) (said : LoopCommand)
      (hsaid : together x.1 x.2 = .proceed said) :
      ∃ g : Tick × Target type × Torques, (g.1, .proceed g.2.1, .proceed g.2.2) = x := by
    obtain ⟨tick, target | _, torques | _⟩ := x
    · exact ⟨(tick, target, torques), rfl⟩
    all_goals cases hsaid
  have hsteer : r.steer .external type.mode
      (steering (motionCallback.onEngine.both torqueCallback.onEngine) together) m =
        (result, m', r') := h
  obtain ⟨op, rounds, hlog, hrounds⟩ := steer_goals
    (fun last s => (last.map fun g => g.2.1.command g.1.state).getD (.hold s))
    (fun last => (last.map fun g => g.2.2).getD Joints.zero) hround (fun _ => rfl)
    (fun _ => rfl) (fun last s => by cases last <;> rfl) (fun last => by cases last <;> rfl)
    (hmotion.both htorques) hr hm hsteer
  refine ⟨rounds, hlog, hrounds.imp_right ?_⟩
  rintro ⟨goals, tick, steps, hgoals, hstop⟩
  refine ⟨goals, tick, steps, hgoals, fun hstops => hstop ?_⟩
  obtain ⟨target | _, torques | _⟩ := steps
  · simp at hstops
  all_goals rfl

end

/-- A call of one of the two callbacks of a motion. -/
inductive TwinCall (type : MotionType)
  | motion (tick : Tick) (step : Step (Target type))
  | torques (tick : Tick) (step : Step Torques)

/-- What the operations that steer motions send, told by the transcripts of their callbacks, on
which the operations do not depend.  A target is put into its own part of the command that holds the
arm.  Where there are two callbacks, each round is a call of the one for the motion and then one of
the other. -/
theorem operations_on_the_wire {σ : Type} {credit : σ → Nat} {type : MotionType} (link : Link)
    (settings : Settings) (clock : Clock) (turns : List Turn) (controller : ControllerMode)
    (motionCallback : Callback credit Tick (Step (Target type)))
    (torqueCallback : Callback credit Tick (Step Torques)) (m : σ) :
    let r := (connect link settings clock).2.after turns
    (∀ (t : Target type) (s : State),
      t.Replaces (.hold s) (t.command s) ∧ (t.command s).finished = false) ∧
    (∃ result m' rounds r',
      r.controlMotion controller motionCallback m = (result, m', r') ∧
      r.controlMotion controller (motionCallback.transcribed Prod.mk) (m, []) =
        (result, (m', rounds), r') ∧
      TargetRounds controller r r' result rounds) ∧
    (∃ result m' rounds r',
      r.controlTorques torqueCallback m = (result, m', r') ∧
      r.controlTorques (torqueCallback.transcribed Prod.mk) (m, []) = (result, (m', rounds), r') ∧
      TorqueRounds r r' result rounds) ∧
    ∃ result m' rounds r',
      r.controlTorquesWithMotion torqueCallback motionCallback m = (result, m', r') ∧
      r.controlTorquesWithMotion (torqueCallback.transcribed TwinCall.torques)
          (motionCallback.transcribed TwinCall.motion) (m, []) =
        (result, (m', rounds.flatMap fun x => [.motion x.1 x.2.1, .torques x.1 x.2.2]), r') ∧
      TwinRounds r r' result rounds := by
  intro r
  have hr : r.Quiescent := (connect_quiescent link settings clock).after turns
  refine ⟨fun t s => ⟨t.replaces_writeTo _, (t.replaces_writeTo _).finished⟩, ?_, ?_, ?_⟩
  · rcases hrun : r.controlMotion controller (motionCallback.transcribed Prod.mk) (m, []) with
      ⟨result, ⟨m', transcript⟩, r'⟩
    have hplain := controlMotion_erase (motionCallback.transcribed_erases Prod.mk) controller r
      (m, [])
    rw [hrun] at hplain
    obtain ⟨rounds, hlog, hrounds⟩ := controlMotion_rounds
      (motionCallback.transcribed_writes Prod.mk) hr rfl hrun
    obtain rfl : transcript = rounds := by simpa using hlog
    exact ⟨result, m', transcript, r', hplain, rfl, hrounds⟩
  · rcases hrun : r.controlTorques (torqueCallback.transcribed Prod.mk) (m, []) with
      ⟨result, ⟨m', transcript⟩, r'⟩
    have hplain := controlTorques_erase (torqueCallback.transcribed_erases Prod.mk) r (m, [])
    rw [hrun] at hplain
    obtain ⟨rounds, hlog, hrounds⟩ := controlTorques_rounds
      (torqueCallback.transcribed_writes Prod.mk) hr rfl hrun
    obtain rfl : transcript = rounds := by simpa using hlog
    exact ⟨result, m', transcript, r', hplain, rfl, hrounds⟩
  · rcases hrun : r.controlTorquesWithMotion (torqueCallback.transcribed TwinCall.torques)
        (motionCallback.transcribed TwinCall.motion) (m, []) with ⟨result, ⟨m', transcript⟩, r'⟩
    have hplain := controlTorquesWithMotion_erase
      (torqueCallback.transcribed_erases TwinCall.torques)
      (motionCallback.transcribed_erases TwinCall.motion) r (m, [])
    rw [hrun] at hplain
    obtain ⟨rounds, hlog, hrounds⟩ := controlTorquesWithMotion_rounds
      (torqueCallback.transcribed_writes TwinCall.torques)
      (motionCallback.transcribed_writes TwinCall.motion) hr rfl hrun
    obtain rfl : transcript = _ := hlog
    exact ⟨result, m', rounds, r', hplain, rfl, hrounds⟩

/-- A robot whose controller confirms a motion in this mode, follows three commands in mid-motion,
and then brings the motion to its end. -/
def followed (mode : MotionMode) : Robot :=
  let moving := { State.initial with motionMode := mode }
  let script : Script :=
    [(.request .connect, [.reply (.connect .success protocolVersion) none 0]),
      (.request .move, [.nextState moving 1, .reply (.move .started) none 0]),
      (.running, [.nextState moving 4]), (.running, [.nextState moving 4]),
      (.running, [.nextState moving 4]),
      (.finished, [.nextState State.initial 1, .reply (.move .success) none 0])]
  (connect { farEnd := { script } } {} default).2

/-- Goes on as long as the memory counts fewer than three calls, and then stops. -/
def thrice {α : Type} (answer : Tick → α) : Callback (fun _ : Nat => 0) Tick (Step α) :=
  .ofPure fun tick n => (if n < 3 then .proceed (answer tick) else .stop, n + 1)

/-- Asks for the position where the arm is. -/
def staying : Callback (fun _ : Nat => 0) Tick (Step (Target .jointPosition)) :=
  thrice fun tick => .jointPositions tick.state

/-- Asks for the same torque in all joints. -/
def pushing : Callback (fun _ : Nat => 0) Tick (Step Torques) :=
  thrice fun _ => Vector.replicate Joints.count ⟨0x3ff0000000000000⟩

/-- What a transcribed operation comes to: whether it succeeds, which calls have stopped it, and
each datagram's id and whether it finishes the motion. -/
def outline (stops : κ → Bool) (ran : Except RobotError Unit × (Nat × List κ) × Robot) :
    Bool × List Bool × List (Option (UInt64 × Bool)) :=
  (ran.1.isOk, ran.2.1.2.map stops, ran.2.2.engine.link.datagrams.map fun d =>
    (Command.decode d).toOption.map fun c => (c.messageId, c.motion.finished))

/-- Three operations that are stopped after some rounds: with targets alone and with both callbacks
where the controller follows positions, and with torques alone where it follows nothing. -/
theorem operations_on_the_wire_stopped :
    let r := followed .jointPosition
    let r₀ := followed .idle
    let motionRun := r.controlMotion .jointImpedance (staying.transcribed Prod.mk) (0, [])
    let torqueRun := r₀.controlTorques (pushing.transcribed Prod.mk) (0, [])
    let twinRun := r.controlTorquesWithMotion (pushing.transcribed TwinCall.torques)
      (staying.transcribed TwinCall.motion) (0, [])
    (outline (fun x => x.2.isStop) motionRun = (true, [false, false, false, true],
        [some (1, false), some (5, false), some (9, false), some (13, true)]) ∧
      ∃ result m' rounds r', r.controlMotion .jointImpedance staying 0 = (result, m', r') ∧
        motionRun = (result, (m', rounds), r') ∧ TargetRounds .jointImpedance r r' result rounds) ∧
    (outline (fun x => x.2.isStop) torqueRun = (true, [false, false, false, true],
        [some (1, false), some (5, false), some (9, false), some (13, true)]) ∧
      ∃ result m' rounds r', r₀.controlTorques pushing 0 = (result, m', r') ∧
        torqueRun = (result, (m', rounds), r') ∧ TorqueRounds r₀ r' result rounds) ∧
    outline (fun | .motion _ step => step.isStop | .torques _ step => step.isStop) twinRun =
      (true, [false, false, false, true], [some (1, false), some (5, true)]) ∧
    ∃ result m' rounds r', r.controlTorquesWithMotion pushing staying 0 = (result, m', r') ∧
      twinRun =
        (result, (m', rounds.flatMap fun x => [.motion x.1 x.2.1, .torques x.1 x.2.2]), r') ∧
      TwinRounds r r' result rounds := by
  obtain ⟨-, hmotion, -, htwin⟩ := operations_on_the_wire _ {} default [] .jointImpedance staying
    pushing 0
  obtain ⟨-, -, htorques, -⟩ := operations_on_the_wire _ {} default [] .jointImpedance staying
    pushing 0
  exact ⟨⟨by decide +kernel, hmotion⟩, ⟨by decide +kernel, htorques⟩, by decide +kernel, htwin⟩

end Robot
end ArmControl
