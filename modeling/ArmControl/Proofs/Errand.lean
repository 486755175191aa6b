import ArmControl.Proofs.InStep

/-! # Errands

An `Errand` is whatever may be asked of a robot, of its engine or of a control loop on the engine,
and something that happens meanwhile counts as one too.  Its answer is what the call returns; where
there are callbacks, it also holds the memory that they leave and all that they were handed.

Every errand is a procedure on the engine, once it is known what the slot holds
(`Errand.procedure_run`), and so it has its moments.  Errands that match are parallel
(`parallel_errand`). -/

namespace ArmControl

open Engine

/-! ### Requests to the engine -/

namespace Engine

/-- What may be asked of an engine, with the type of the answer. -/
inductive Order : Type → Type
  | update (motion : Option MotionCommand) (torques : Option Torques) :
      Order (Except SessionError (Option State))
  | startGenerator (type : MotionType) : Order (Except SessionError Unit)
  | stopGenerator : Order (Except SessionError Unit)
  | setController (mode : ControllerMode) : Order (Except SessionError Unit)
  | startMotion (controller : ControllerMode) (motion : MotionMode) (path goal : Deviation) :
      Order (Except SessionError UInt32)
  | finishMotion (id : UInt32) (motion : Option MotionCommand) (torques : Option Torques) :
      Order (Except SessionError Unit)
  | cancelMotion : Order Unit

variable {α : Type}

def obey (e : Engine) : Order α → α × Engine
  | .update motion torques => e.update motion torques
  | .startGenerator type => e.startGenerator type
  | .stopGenerator => e.stopGenerator
  | .setController mode => e.setController mode
  | .startMotion controller motion path goal => e.startMotion controller motion path goal
  | .finishMotion id motion torques => e.finishMotion id motion torques
  | .cancelMotion => ((), e.cancelMotion)

def Order.procedure : Order α → Procedure α
  | .update motion torques => .update motion torques
  | .startGenerator type => .startGenerator type
  | .stopGenerator => .stopGenerator
  | .setController mode => .setController mode
  | .startMotion controller motion path goal => .startMotion controller motion path goal
  | .finishMotion id motion torques => .finishMotion id motion torques
  | .cancelMotion => .cancelMotion

theorem Order.procedure_run (order : Order α) (e : Engine) :
    order.procedure.run e = e.obey order := by
  cases order <;> rfl

end Engine

namespace Procedure

theorem steady_order {α : Type} (order : Order α) : Steady order.procedure := by
  cases order with
  | update motion torques => exact steady_update motion torques
  | startGenerator type => exact steady_startGenerator type
  | stopGenerator => exact steady_stopGenerator
  | setController mode => exact steady_setController mode
  | startMotion controller motion path goal => exact steady_startMotion controller motion path goal
  | finishMotion id motion torques => exact steady_finishMotion id motion torques
  | cancelMotion => exact steady_cancelMotion

end Procedure

namespace Robot

/-! ### Callbacks of a robot -/

namespace Callback

variable {σ : Type} {credit₁ credit₂ : σ → Nat} {ι ρ : Type}

/-- While an operation is in progress, the callbacks answer the same and keep the same memory; what
happens on the links meanwhile is left open. -/
def InStep (cb₁ : Callback credit₁ ι ρ) (cb₂ : Callback credit₂ ι ρ) : Prop :=
  ∀ input op e₁ e₂ m, e₁.bare = e₂.bare →
    (cb₁.call input ⟨some op, e₁⟩ m).1 = (cb₂.call input ⟨some op, e₂⟩ m).1 ∧
    (cb₁.call input ⟨some op, e₁⟩ m).2.1 = (cb₂.call input ⟨some op, e₂⟩ m).2.1

/-- A callback that leaves the robot alone is in step with itself. -/
theorem inStep_ofPure (f : ι → σ → ρ × σ) : InStep (ofPure f) (ofPure f) :=
  fun _ _ _ _ _ _ => ⟨rfl, rfl⟩

/-- The callback with all that it is handed written down beside its memory. -/
def logged {credit : σ → Nat} (cb : Callback credit ι ρ) :
    Callback (fun p : σ × List ι => credit p.1) ι ρ where
  call input r p :=
    let (answer, m, r) := cb.call input r p.1
    (answer, (m, p.2 ++ [input]), r)
  outside input r p := cb.outside input r p.1

theorem logged_erases {credit : σ → Nat} (cb : Callback credit ι ρ) :
    ArmControl.Callback.Erases (Prod.map id Prod.fst) cb.logged.onEngine cb.onEngine :=
  fun _ _ _ => rfl

variable {cb₁ : Callback credit₁ ι ρ} {cb₂ : Callback credit₂ ι ρ}

theorem InStep.logged (h : InStep cb₁ cb₂) : InStep cb₁.logged cb₂.logged := by
  intro input op e₁ e₂ p hbare
  obtain ⟨hanswer, hmemory⟩ := h input op e₁ e₂ p.1 hbare
  exact ⟨hanswer, congrArg (·, p.2 ++ [input]) hmemory⟩

theorem InStep.onEngine (h : InStep cb₁ cb₂) : cb₁.onEngine.InStep cb₂.onEngine := by
  intro input e₁ e₂ p hbare
  obtain ⟨hanswer, hmemory⟩ := h input p.1 e₁ e₂ p.2 hbare
  obtain ⟨hs₁, heq₁, -⟩ := cb₁.outside input ⟨some p.1, e₁⟩ p.2 (by simp)
  obtain ⟨hs₂, heq₂, -⟩ := cb₂.outside input ⟨some p.1, e₂⟩ p.2 (by simp)
  refine ⟨hanswer, ?_⟩
  simp only [Callback.onEngine, hmemory, heq₁, heq₂]
  rfl

end Callback

/-! ### Errands -/

/-- What may be asked of a robot or of what is below it, with the type of the answer. -/
inductive Errand : Type → Type 1
  | order {α : Type} (order : Order α) : Errand α
  | run {σ : Type} {credit : σ → Nat} (controller : ControllerMode) (motion : MotionMode)
      (steering : ControlLoop.Steering credit) (m : σ) :
      Errand (Except SessionError Unit × σ × List Tick)
  | read {σ : Type} {credit : σ → Nat} (cb : Callback credit State Bool) (m : σ) :
      Errand (Except RobotError Unit × σ × List State)
  | readOnce : Errand (Except RobotError State)
  | controlIdle {σ : Type} {credit : σ → Nat} (controller : ControllerMode)
      (cb : Callback credit State Bool) (m : σ) : Errand (Except RobotError Unit × σ × List State)
  | controlMotion {σ : Type} {credit : σ → Nat} {type : MotionType} (controller : ControllerMode)
      (cb : Callback credit Tick (Step (Target type))) (m : σ) :
      Errand (Except RobotError Unit × σ × List Tick)
  | controlTorques {σ : Type} {credit : σ → Nat} (cb : Callback credit Tick (Step Torques))
      (m : σ) : Errand (Except RobotError Unit × σ × List Tick)
  | controlTorquesWithMotion {σ : Type} {credit : σ → Nat} {type : MotionType}
      (torqueCallback : Callback credit Tick (Step Torques))
      (motionCallback : Callback credit Tick (Step (Target type))) (m : σ) :
      Errand (Except RobotError Unit × σ × List Tick)
  | happen (happenings : List Happening) : Errand Unit

variable {α : Type}

/-- Carries out an errand.  Whatever its callbacks are handed is written down. -/
def carryOut (r : Robot) : Errand α → α × Robot
  | .order order =>
    let (answer, engine) := r.engine.obey order
    (answer, { r with engine })
  | .run controller motion steering m =>
    let (result, p, engine) := ControlLoop.run controller motion steering.logged r.engine (m, [])
    ((result, p), { r with engine })
  | .read cb m =>
    let (result, p, r) := r.read cb.logged (m, [])
    ((result, p), r)
  | .readOnce => r.readOnce
  | .controlIdle controller cb m =>
    let (result, p, r) := r.controlIdle controller cb.logged (m, [])
    ((result, p), r)
  | .controlMotion controller cb m =>
    let (result, p, r) := r.controlMotion controller cb.logged (m, [])
    ((result, p), r)
  | .controlTorques cb m =>
    let (result, p, r) := r.controlTorques cb.logged (m, [])
    ((result, p), r)
  | .controlTorquesWithMotion torqueCallback motionCallback m =>
    let (result, p, r) :=
      r.controlTorquesWithMotion torqueCallback.logged motionCallback.logged (m, [])
    ((result, p), r)
  | .happen happenings => ((), r.witness happenings)

/-! ### Writing down changes nothing -/

section

variable {σ ι β : Type} {credit : σ → Nat}

/-- The outcome of an errand without what its callbacks were handed. -/
def unlogged (outcome : (β × σ × List ι) × Robot) : β × σ × Robot :=
  (outcome.1.1, outcome.1.2.1, outcome.2)

theorem run_unlogged (controller : ControllerMode) (motion : MotionMode)
    (steering : ControlLoop.Steering credit) (r : Robot) (m : σ) :
    unlogged (r.carryOut (.run controller motion steering m)) =
      ((ControlLoop.run controller motion steering r.engine m).1,
        (ControlLoop.run controller motion steering r.engine m).2.1,
        { r with engine := (ControlLoop.run controller motion steering r.engine m).2.2 }) := by
  rw [ControlLoop.run_erase steering.logged_erases controller motion r.engine (m, [])]
  rfl

theorem read_unlogged (cb : Callback credit State Bool) (r : Robot) (m : σ) :
    unlogged (r.carryOut (.read cb m)) = r.read cb m :=
  (read_erase cb.logged_erases r (m, [])).symm

theorem controlIdle_unlogged (controller : ControllerMode) (cb : Callback credit State Bool)
    (r : Robot) (m : σ) :
    unlogged (r.carryOut (.controlIdle controller cb m)) = r.controlIdle controller cb m :=
  (controlIdle_erase cb.logged_erases controller r (m, [])).symm

theorem controlMotion_unlogged {type : MotionType} (controller : ControllerMode)
    (cb : Callback credit Tick (Step (Target type))) (r : Robot) (m : σ) :
    unlogged (r.carryOut (.controlMotion controller cb m)) = r.controlMotion controller cb m :=
  (controlMotion_erase cb.logged_erases controller r (m, [])).symm

theorem controlTorques_unlogged (cb : Callback credit Tick (Step Torques)) (r : Robot) (m : σ) :
    unlogged (r.carryOut (.controlTorques cb m)) = r.controlTorques cb m :=
  (controlTorques_erase cb.logged_erases r (m, [])).symm

theorem controlTorquesWithMotion_unlogged {type : MotionType}
    (torqueCallback : Callback credit Tick (Step Torques))
    (motionCallback : Callback credit Tick (Step (Target type))) (r : Robot) (m : σ) :
    unlogged (r.carryOut (.controlTorquesWithMotion torqueCallback motionCallback m)) =
      r.controlTorquesWithMotion torqueCallback motionCallback m :=
  (controlTorquesWithMotion_erase torqueCallback.logged_erases motionCallback.logged_erases r
    (m, [])).symm

end

end Robot

/-! ### Errands as procedures -/

namespace Procedure

variable {α σ : Type} {credit credit₁ credit₂ : σ → Nat}

/-- An operation: what it does to the engine, with the slot claimed before and released after. -/
def operating (op : Operation)
    (P : Operation × σ → Procedure (Except SessionError α × Operation × σ)) (m : σ) (slot : Slot) :
    Procedure ((Except RobotError α × σ) × Slot) :=
  match slot.claim (some op) with
  | .error err => return ((.error (.session err), m), slot)
  | .ok _ => do
    let (result, _, m) ← P (op, m)
    return ((result.mapError .session, m), .free)

/-- An answer with what the robot is left with. -/
def apart {α : Type} (outcome : α × Robot) : (α × Slot) × Engine :=
  ((outcome.1, outcome.2.slot), outcome.2.engine)

theorem operating_run {op : Operation}
    {P : Operation × σ → Procedure (Except SessionError α × Operation × σ)}
    {activity : Engine → Operation × σ → Except SessionError α × (Operation × σ) × Engine}
    (hP : ∀ p e, (P p).run e = together (activity e p)) (m : σ) (r : Robot) :
    (operating op P m r.slot).run r.engine = apart (together (Robot.operate op activity r m)) := by
  unfold operating Robot.operate
  cases r.slot.claim (some op) with
  | error err => rfl
  | ok _ =>
      simp only [run_bind, hP]
      rfl

theorem parallel_operating
    {P₁ P₂ : Operation × σ → Procedure (Except SessionError α × Operation × σ)}
    (h : ∀ p, Parallel (P₁ p) (P₂ p)) (op : Operation) (m : σ) (slot : Slot) :
    Parallel (operating op P₁ m slot) (operating op P₂ m slot) := by
  unfold operating
  cases slot.claim (some op) with
  | error err => exact steady_pure _
  | ok _ => exact (h (op, m)).bind fun _ => steady_pure _

/-- Reads the next state. -/
def reading (p : Operation × Unit) : Procedure (Except SessionError State × Operation × Unit) := do
  match ← update none none with
  | .error err => return (.error err, p)
  | .ok none => return (.error .closed, p)
  | .ok (some s) => return (.ok s, p)

theorem steady_reading (p : Operation × Unit) : Steady (reading p) := by
  refine (steady_update _ _).bind fun updated => ?_
  rcases updated with err | _ | s <;> exact steady_pure _

/-- Chooses a controller, and shows states from the one that confirms it on. -/
def idling (controller : ControllerMode) (cb : Callback credit State Bool) (m : σ) :
    Procedure (Except SessionError Unit × σ) := do
  match ← setController controller with
  | .error err => return (.error err, m)
  | .ok () =>
    match ← see Engine.lastState with
    | none => (showing cb).procedure m
    | some s =>
      match ← callback cb s m with
      | (true, m) => (showing cb).procedure m
      | (false, m) => return (.ok (), m)

theorem parallel_idling {cb₁ : Callback credit₁ State Bool} {cb₂ : Callback credit₂ State Bool}
    (h : cb₁.InStep cb₂) (controller : ControllerMode) (m : σ) :
    Parallel (idling controller cb₁ m) (idling controller cb₂ m) := by
  refine (steady_setController controller).parallel.bind fun chosen => ?_
  rcases chosen with err | ⟨⟩
  · exact steady_pure _
  · refine (steady_see fun _ => rfl).parallel.bind fun s => ?_
    cases s with
    | none => exact parallel_showing h m
    | some s =>
        refine (parallel_callback h s m).bind fun answered => ?_
        rcases answered with ⟨_ | _, m⟩
        · exact steady_pure _
        · exact parallel_showing h m

end Procedure

namespace Robot

open Procedure

variable {α σ : Type} {credit credit₁ credit₂ : σ → Nat}

/-- What steers a motion by targets. -/
def targetSteering {type : MotionType} (cb : Callback credit Tick (Step (Target type))) :
    ControlLoop.Steering (fun p : Operation × σ => credit p.2) :=
  cb.onEngine.map fun tick step =>
    .ok (step.map fun target => { motion := some (target.command tick.state) })

/-- What drives the joints by torques. -/
def torqueSteering (cb : Callback credit Tick (Step Torques)) :
    ControlLoop.Steering (fun p : Operation × σ => credit p.2) :=
  cb.onEngine.map fun _ step => .ok (step.map fun torques => { torques := some torques })

/-- What steers a motion by targets and torques. -/
def jointSteering {type : MotionType} (torqueCallback : Callback credit Tick (Step Torques))
    (motionCallback : Callback credit Tick (Step (Target type))) :
    ControlLoop.Steering (fun p : Operation × σ => credit p.2) :=
  (motionCallback.onEngine.both torqueCallback.onEngine).map fun tick steps =>
    .ok (together tick steps)

/-- What an errand does to the engine, and what the slot holds before and afterwards. -/
def Errand.procedure : Errand α → Slot → Procedure (α × Slot)
  | .order asked, slot => return (← asked.procedure, slot)
  | .run controller motion steering m, slot =>
    return (← running controller motion steering.logged (m, []), slot)
  | .read cb m, slot => operating .reading (showing cb.logged.onEngine).procedure (m, []) slot
  | .readOnce, slot => do
    let ((result, _), slot) ← operating .reading reading () slot
    return (result, slot)
  | .controlIdle controller cb m, slot =>
    operating (.controlling controller .idle) (idling controller cb.logged.onEngine) (m, []) slot
  | @controlMotion _ _ type controller cb m, slot =>
    operating (.controlling controller type.mode)
      (running controller type.mode (targetSteering cb.logged)) (m, []) slot
  | .controlTorques cb m, slot =>
    operating (.controlling .external .idle)
      (running .external .idle (torqueSteering cb.logged)) (m, []) slot
  | @controlTorquesWithMotion _ _ type torqueCallback motionCallback m, slot =>
    operating (.controlling .external type.mode)
      (running .external type.mode (jointSteering torqueCallback.logged motionCallback.logged))
      (m, []) slot
  | .happen happenings, slot =>
    ⟨fun e => (((), slot), e.witness happenings), fun _ => [], fun _ => .of_act (.happen _)⟩

theorem idling_run (controller : ControllerMode) (cb : Callback credit State Bool)
    (p : Operation × σ) (e : Engine) : (idling controller cb.onEngine p).run e =
    Procedure.together (
      match e.setController controller with
      | (.error err, e) => (.error err, p, e)
      | (.ok (), e) =>
        match e.lastState with
        | none => showStates cb.onEngine e p
        | some s =>
          match cb.onEngine.call s e p with
          | (true, p, e) => showStates cb.onEngine e p
          | (false, p, e) => (.ok (), p, e)) := by
  simp only [idling, run_bind, Procedure.setController]
  rcases e.setController controller with ⟨err | ⟨⟩, e₁⟩
  · rfl
  · simp only [run_bind, see]
    cases e₁.lastState with
    | none => exact showing_run cb.onEngine p e₁
    | some s =>
        simp only [run_bind, Procedure.callback]
        rcases cb.onEngine.call s e₁ p with ⟨_ | _, p', e₂⟩
        · rfl
        · exact showing_run cb.onEngine p' e₂

theorem reading_run (p : Operation × Unit) (e : Engine) : (reading p).run e =
    Procedure.together (
      match e.update none none with
      | (.error err, e) => (.error err, p, e)
      | (.ok none, e) => (.error .closed, p, e)
      | (.ok (some s), e) => (.ok s, p, e)) := by
  simp only [reading, run_bind, Procedure.update]
  rcases e.update none none with ⟨err | _ | s, e₁⟩ <;> rfl

theorem Errand.procedure_run (t : Errand α) (r : Robot) :
    (t.procedure r.slot).run r.engine = apart (r.carryOut t) := by
  cases t with
  | order asked =>
      simp only [Errand.procedure, run_bind, Order.procedure_run]
      rfl
  | run controller motion steering m =>
      simp only [Errand.procedure, run_bind, running_run]
      rfl
  | read cb m => exact operating_run (showing_run cb.logged.onEngine) (m, []) r
  | readOnce =>
      simp only [Errand.procedure, run_bind, operating_run reading_run]
      rfl
  | controlIdle controller cb m => exact operating_run (idling_run controller cb.logged) (m, []) r
  | controlMotion controller cb m =>
      exact operating_run (running_run controller _ (targetSteering cb.logged)) (m, []) r
  | controlTorques cb m =>
      exact operating_run (running_run .external .idle (torqueSteering cb.logged)) (m, []) r
  | controlTorquesWithMotion torqueCallback motionCallback m =>
      exact operating_run (running_run .external _
        (jointSteering torqueCallback.logged motionCallback.logged)) (m, []) r
  | happen happenings => rfl

/-! ### Errands that match -/

/-- The errands are the same, but for callbacks that are in step and for what happens on the links. -/
inductive Errand.Matches : {α : Type} → Errand α → Errand α → Prop
  | order {α : Type} (asked : Order α) : Matches (.order asked) (.order asked)
  | run {σ : Type} {credit₁ credit₂ : σ → Nat} {steering₁ : ControlLoop.Steering credit₁}
      {steering₂ : ControlLoop.Steering credit₂} (h : steering₁.InStep steering₂)
      (controller : ControllerMode) (motion : MotionMode) (m : σ) :
      Matches (.run controller motion steering₁ m) (.run controller motion steering₂ m)
  | read {σ : Type} {credit₁ credit₂ : σ → Nat} {cb₁ : Callback credit₁ State Bool}
      {cb₂ : Callback credit₂ State Bool} (h : cb₁.InStep cb₂) (m : σ) :
      Matches (.read cb₁ m) (.read cb₂ m)
  | readOnce : Matches .readOnce .readOnce
  | controlIdle {σ : Type} {credit₁ credit₂ : σ → Nat} {cb₁ : Callback credit₁ State Bool}
      {cb₂ : Callback credit₂ State Bool} (h : cb₁.InStep cb₂) (controller : ControllerMode)
      (m : σ) : Matches (.controlIdle controller cb₁ m) (.controlIdle controller cb₂ m)
  | controlMotion {σ : Type} {credit₁ credit₂ : σ → Nat} {type : MotionType}
      {cb₁ : Callback credit₁ Tick (Step (Target type))}
      {cb₂ : Callback credit₂ Tick (Step (Target type))} (h : cb₁.InStep cb₂)
      (controller : ControllerMode) (m : σ) :
      Matches (.controlMotion controller cb₁ m) (.controlMotion controller cb₂ m)
  | controlTorques {σ : Type} {credit₁ credit₂ : σ → Nat}
      {cb₁ : Callback credit₁ Tick (Step Torques)} {cb₂ : Callback credit₂ Tick (Step Torques)}
      (h : cb₁.InStep cb₂) (m : σ) :
      Matches (.controlTorques cb₁ m) (.controlTorques cb₂ m)
  | controlTorquesWithMotion {σ : Type} {credit₁ credit₂ : σ → Nat} {type : MotionType}
      {torque₁ : Callback credit₁ Tick (Step Torques)}
      {torque₂ : Callback credit₂ Tick (Step Torques)}
      {motion₁ : Callback credit₁ Tick (Step (Target type))}
      {motion₂ : Callback credit₂ Tick (Step (Target type))} (htorque : torque₁.InStep torque₂)
      (hmotion : motion₁.InStep motion₂) (m : σ) :
      Matches (.controlTorquesWithMotion torque₁ motion₁ m)
        (.controlTorquesWithMotion torque₂ motion₂ m)
  | happen (hs₁ hs₂ : List Happening) : Matches (.happen hs₁) (.happen hs₂)

theorem parallel_errand {t₁ t₂ : Errand α} (h : t₁.Matches t₂) (slot : Slot) :
    Parallel (t₁.procedure slot) (t₂.procedure slot) := by
  cases h with
  | order asked => exact (steady_order asked).bind fun _ => steady_pure _
  | run h controller motion m =>
      exact (parallel_running h.logged controller motion _).bind fun _ => steady_pure _
  | read h m => exact parallel_operating (parallel_showing h.logged.onEngine) _ _ slot
  | readOnce =>
      exact (parallel_operating steady_reading _ _ slot).bind fun _ => steady_pure _
  | controlIdle h controller m =>
      exact parallel_operating (parallel_idling h.logged.onEngine controller) _ _ slot
  | controlMotion h controller m =>
      exact parallel_operating (parallel_running (h.logged.onEngine.map _) controller _) _ _ slot
  | controlTorques h m =>
      exact parallel_operating (parallel_running (h.logged.onEngine.map _) _ _) _ _ slot
  | controlTorquesWithMotion htorque hmotion m =>
      exact parallel_operating (parallel_running
        ((hmotion.logged.onEngine.both htorque.logged.onEngine).map _) _ _) _ _ slot
  | happen hs₁ hs₂ =>
      intro extra start₁ start₂ e₁ e₂ halike _ _
      exact ⟨rfl, halike.bare, halike.linked.witness hs₁ hs₂⟩

end Robot
end ArmControl
