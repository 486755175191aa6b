import ArmControl.Proofs.Parallel
import ArmControl.Proofs.Recording

/-! # Loops beside each other

Two callbacks are in step if they give the same answers and keep the same memory whenever engines
that differ by extra messages call them with the same input.

The loops that call them are procedures (`cycling`, `showing`), so they are parallel when their
callbacks are in step (`parallel_running`, `parallel_showing`). -/

namespace ArmControl

open Engine

/-! ### Callbacks -/

namespace Callback

variable {σ : Type} {credit₁ credit₂ : σ → Nat} {ι ρ ρ' : Type}

/-- The callbacks answer the same and keep the same memory; what happens on the links meanwhile is
left open. -/
def InStep (cb₁ : Callback credit₁ ι ρ) (cb₂ : Callback credit₂ ι ρ) : Prop :=
  ∀ input e₁ e₂ m, e₁.bare = e₂.bare →
    (cb₁.call input e₁ m).1 = (cb₂.call input e₂ m).1 ∧
    (cb₁.call input e₁ m).2.1 = (cb₂.call input e₂ m).2.1

variable {cb₁ : Callback credit₁ ι ρ} {cb₂ : Callback credit₂ ι ρ}

/-- Nothing but the link is touched by a callback. -/
theorem call_bare (cb : Callback credit₁ ι ρ) (input : ι) (e : Engine) (m : σ) :
    (cb.call input e m).2.2.bare = e.bare := by
  obtain ⟨hs, heq, -⟩ := cb.outside input e m
  rw [heq]
  rfl

theorem InStep.map (h : InStep cb₁ cb₂) (f : ι → ρ → ρ') : InStep (cb₁.map f) (cb₂.map f) := by
  intro input e₁ e₂ m hbare
  obtain ⟨hanswer, hmemory⟩ := h input e₁ e₂ m hbare
  exact ⟨congrArg (f input) hanswer, hmemory⟩

theorem InStep.both {second₁ : Callback credit₁ ι ρ'} {second₂ : Callback credit₂ ι ρ'}
    (h : InStep cb₁ cb₂) (hsecond : InStep second₁ second₂) :
    InStep (cb₁.both second₁) (cb₂.both second₂) := by
  intro input e₁ e₂ m hbare
  obtain ⟨hanswer, hmemory⟩ := h input e₁ e₂ m hbare
  have hbare' : (cb₁.call input e₁ m).2.2.bare = (cb₂.call input e₂ m).2.2.bare := by
    rw [call_bare, call_bare, hbare]
  obtain ⟨hanswer', hmemory'⟩ := hsecond input _ _ (cb₂.call input e₂ m).2.1 hbare'
  simp only [Callback.both, hanswer, hmemory]
  exact ⟨by rw [hanswer'], hmemory'⟩

/-- The callback with all that it is handed written down beside its memory. -/
def logged {credit : σ → Nat} (cb : Callback credit ι ρ) :
    Callback (fun p : σ × List ι => credit p.1) ι ρ where
  call input e p :=
    let (answer, m, e) := cb.call input e p.1
    (answer, (m, p.2 ++ [input]), e)
  outside input e p := cb.outside input e p.1

theorem logged_erases {credit : σ → Nat} (cb : Callback credit ι ρ) :
    Erases Prod.fst cb.logged cb :=
  fun _ _ _ => rfl

theorem InStep.logged (h : InStep cb₁ cb₂) : InStep cb₁.logged cb₂.logged := by
  intro input e₁ e₂ p hbare
  obtain ⟨hanswer, hmemory⟩ := h input e₁ e₂ p.1 hbare
  exact ⟨hanswer, congrArg (·, p.2 ++ [input]) hmemory⟩

end Callback

namespace Procedure

variable {σ ι ρ : Type} {credit credit₁ credit₂ : σ → Nat}

/-- Calls a callback. -/
def callback (cb : Callback credit ι ρ) (input : ι) (m : σ) : Procedure (ρ × σ) where
  run e := (((cb.call input e m).1, (cb.call input e m).2.1), (cb.call input e m).2.2)
  moments _ := []
  path e := by
    obtain ⟨hs, heq, -⟩ := cb.outside input e m
    rw [heq]
    exact .of_act (.happen hs)

theorem parallel_callback {cb₁ : Callback credit₁ ι ρ} {cb₂ : Callback credit₂ ι ρ}
    (h : cb₁.InStep cb₂) (input : ι) (m : σ) :
    Parallel (callback cb₁ input m) (callback cb₂ input m) := by
  intro extra start₁ start₂ e₁ e₂ halike _ _
  obtain ⟨hanswer, hmemory⟩ := h input e₁ e₂ m halike.bare
  obtain ⟨hs₁, heq₁, -⟩ := cb₁.outside input e₁ m
  obtain ⟨hs₂, heq₂, -⟩ := cb₂.outside input e₂ m
  simp only [callback, hanswer, hmemory, heq₁, heq₂]
  exact ⟨trivial, halike.bare, halike.linked.witness hs₁ hs₂⟩

/-! ### The control loop -/

/-- Where a control loop is at the beginning of a cycle. -/
structure Cycle (σ : Type) where
  state : State
  previous : UInt64
  last : LoopCommand
  memory : σ

/-- One cycle of a motion. -/
def cycle (steering : ControlLoop.Steering credit) (id : UInt32) (c : Cycle σ) :
    Procedure (Cycle σ ⊕ (Except SessionError Unit × σ)) := do
  match ← callback steering ⟨c.state, Tick.between c.previous c.state.messageId⟩ c.memory with
  | (.error err, m) => return .inr (.error err, m)
  | (.ok .stop, m) => do
    let result ← finishMotion id c.last.motion c.last.torques
    return .inr (result, m)
  | (.ok (.proceed command), m) =>
    match command.validate with
    | .error err => return .inr (.error err, m)
    | .ok () =>
      match ← update command.motion command.torques with
      | .ok (some s) => return .inl ⟨s, c.state.messageId, command, m⟩
      | .ok none => return .inr (.error .closed, m)
      | .error err => return .inr (.error err, m)

theorem cycle_rank_lt {steering : ControlLoop.Steering credit} {id : UInt32} {c c' : Cycle σ}
    {e e' : Engine} (h : (cycle steering id c).run e = (.inl c', e')) :
    e'.supply + credit c'.memory < e.supply + credit c.memory := by
  have hcall := steering.call_supply_le
    ⟨c.state, Tick.between c.previous c.state.messageId⟩ e c.memory
  simp only [cycle, run_bind, callback] at h
  generalize steering.call _ e c.memory = called at h hcall
  obtain ⟨answer, m, e₁⟩ := called
  rcases answer with err | ⟨command⟩ | _
  · cases h
  · simp only at h
    cases hvalid : command.validate with
    | error err =>
      rw [hvalid] at h
      cases h
    | ok _ =>
      simp only [hvalid, run_bind, update] at h
      rcases hupdate : e₁.update command.motion command.torques with ⟨err | _ | s, e₂⟩ <;>
        rw [hupdate] at h
      · cases h
      · cases h
      · cases h
        have hlt := update_supply_lt hupdate
        simp only at hcall ⊢
        omega
  · cases h

/-- The cycles of a motion. -/
def cycling (steering : ControlLoop.Steering credit) (id : UInt32) :
    Repetition (Cycle σ) (Except SessionError Unit × σ) where
  body := cycle steering id
  rank c e := e.supply + credit c.memory
  rank_lt := cycle_rank_lt

/-- The outcome of a loop, with its result and the memory together. -/
def together {α β : Type} (outcome : α × σ × β) : (α × σ) × β :=
  ((outcome.1, outcome.2.1), outcome.2.2)

theorem cycling_run (steering : ControlLoop.Steering credit) (id : UInt32) (s : State)
    (previous : UInt64) (last : LoopCommand) (m : σ) (e : Engine) :
    ((cycling steering id).procedure ⟨s, previous, last, m⟩).run e =
      together (ControlLoop.cycles steering id s previous last e m) := by
  fun_induction ControlLoop.cycles steering id s previous last e m with
  | case1 s previous last e m err m₁ e₁ hcall =>
      rw [Repetition.procedure_eq]
      simp only [run_bind, cycling, cycle, callback, hcall]
      rfl
  | case2 s previous last e m m₁ e₁ hcall result e₂ hfinish =>
      rw [Repetition.procedure_eq]
      simp only [run_bind, cycling, cycle, callback, hcall, finishMotion, hfinish]
      rfl
  | case3 s previous last e m command m₁ e₁ hcall err hvalid =>
      rw [Repetition.procedure_eq]
      simp only [run_bind, cycling, cycle, callback, hcall, hvalid]
      rfl
  | case4 s previous last e m command m₁ e₁ hcall hvalid s' e₂ hupdate ih =>
      rw [← ih, Repetition.procedure_eq, run_bind]
      simp only [run_bind, cycling, cycle, callback, hcall, hvalid, update, hupdate]
      rfl
  | case5 s previous last e m command m₁ e₁ hcall hvalid e₂ hupdate =>
      rw [Repetition.procedure_eq]
      simp only [run_bind, cycling, cycle, callback, hcall, hvalid, update, hupdate]
      rfl
  | case6 s previous last e m command m₁ e₁ hcall hvalid err e₂ hupdate =>
      rw [Repetition.procedure_eq]
      simp only [run_bind, cycling, cycle, callback, hcall, hvalid, update, hupdate]
      rfl

/-- The cycles of a motion that has just been confirmed. -/
def spinning (steering : ControlLoop.Steering credit) (id : UInt32) (m : σ) :
    Procedure (Except SessionError Unit × σ) := do
  match ← see Engine.lastState with
  | some s => (cycling steering id).procedure ⟨s, s.messageId, {}, m⟩
  | none =>
    match ← update none none with
    | .ok (some s) => (cycling steering id).procedure ⟨s, s.messageId, {}, m⟩
    | .ok none => return (.error .closed, m)
    | .error err => return (.error err, m)

theorem spinning_run (steering : ControlLoop.Steering credit) (id : UInt32) (m : σ) (e : Engine) :
    (spinning steering id m).run e = together (ControlLoop.spin steering id e m) := by
  simp only [spinning, ControlLoop.spin, run_bind, see]
  cases e.lastState with
  | some s => exact cycling_run steering id s _ _ m e
  | none =>
      simp only [run_bind, update]
      rcases e.update none none with ⟨err | _ | s, e₁⟩
      · rfl
      · rfl
      · exact cycling_run steering id s _ _ m e₁

/-- A control loop from its start to its end. -/
def running (controller : ControllerMode) (motion : MotionMode)
    (steering : ControlLoop.Steering credit) (m : σ) :
    Procedure (Except SessionError Unit × σ) := do
  match ← see Engine.raisePriority with
  | .error err => return (.error err, m)
  | .ok () =>
    let settings ← see Engine.settings
    match ← startMotion controller motion settings.path settings.goal with
    | .error err => return (.error err, m)
    | .ok id =>
      match ← spinning steering id m with
      | (.ok (), m) => return (.ok (), m)
      | (.error err, m) => do
        cancelMotion
        return (.error err, m)

theorem running_run (controller : ControllerMode) (motion : MotionMode)
    (steering : ControlLoop.Steering credit) (m : σ) (e : Engine) :
    (running controller motion steering m).run e =
      together (ControlLoop.run controller motion steering e m) := by
  simp only [running, ControlLoop.run, run_bind, see]
  cases e.raisePriority with
  | error err => rfl
  | ok _ =>
      simp only [run_bind, startMotion]
      rcases Engine.startMotion _ _ _ _ e with ⟨err | id, e₁⟩
      · rfl
      · simp only [run_bind, spinning_run]
        rcases ControlLoop.spin steering id e₁ m with ⟨err | ⟨⟩, m₁, e₂⟩ <;> rfl

section

variable {steering₁ : ControlLoop.Steering credit₁} {steering₂ : ControlLoop.Steering credit₂}

theorem parallel_cycling (h : steering₁.InStep steering₂) (id : UInt32) (c : Cycle σ) :
    Parallel ((cycling steering₁ id).procedure c) ((cycling steering₂ id).procedure c) := by
  refine parallel_repetition (fun c => ?_) c
  refine (parallel_callback h _ c.memory).bind fun answered => ?_
  rcases answered with ⟨err | ⟨command⟩ | _, m⟩
  · exact steady_pure _
  · simp only
    cases command.validate with
    | error err => exact steady_pure _
    | ok _ =>
        refine (steady_update _ _).bind fun updated => ?_
        rcases updated with err | _ | s <;> exact steady_pure _
  · exact (steady_finishMotion _ _ _).bind fun _ => steady_pure _

theorem parallel_spinning (h : steering₁.InStep steering₂) (id : UInt32) (m : σ) :
    Parallel (spinning steering₁ id m) (spinning steering₂ id m) := by
  refine (steady_see fun _ => rfl).parallel.bind fun s => ?_
  cases s with
  | some s => exact parallel_cycling h id _
  | none =>
      refine (steady_update _ _).parallel.bind fun updated => ?_
      rcases updated with err | _ | s
      · exact steady_pure _
      · exact steady_pure _
      · exact parallel_cycling h id _

theorem parallel_running (h : steering₁.InStep steering₂) (controller : ControllerMode)
    (motion : MotionMode) (m : σ) : Parallel (running controller motion steering₁ m)
      (running controller motion steering₂ m) := by
  refine (steady_see fun _ => rfl).parallel.bind fun raised => ?_
  cases raised with
  | error err => exact steady_pure _
  | ok _ =>
      refine (steady_see fun _ => rfl).parallel.bind fun settings => ?_
      refine (steady_startMotion _ _ _ _).parallel.bind fun started => ?_
      rcases started with err | id
      · exact steady_pure _
      · refine (parallel_spinning h id m).bind fun spun => ?_
        rcases spun with ⟨err | ⟨⟩, m⟩
        · exact steady_cancelMotion.bind fun _ => steady_pure _
        · exact steady_pure _

end

/-! ### Readings -/

/-- One state of a reading. -/
def display (cb : Callback credit State Bool) (m : σ) :
    Procedure (σ ⊕ (Except SessionError Unit × σ)) := do
  match ← update none none with
  | .error err => return .inr (.error err, m)
  | .ok none => return .inr (.ok (), m)
  | .ok (some s) =>
    match ← callback cb s m with
    | (true, m) => return .inl m
    | (false, m) => return .inr (.ok (), m)

theorem display_rank_lt {cb : Callback credit State Bool} {m m' : σ} {e e' : Engine}
    (h : (display cb m).run e = (.inl m', e')) : e'.supply + credit m' < e.supply + credit m := by
  simp only [display, run_bind, update] at h
  rcases hupdate : e.update none none with ⟨err | _ | s, e₁⟩ <;> rw [hupdate] at h
  · cases h
  · cases h
  · have hcall := cb.call_supply_le s e₁ m
    simp only [run_bind, callback] at h
    generalize cb.call s e₁ m = called at h hcall
    rcases called with ⟨_ | _, m₁, e₂⟩
    · cases h
    · cases h
      have hlt := update_supply_lt hupdate
      simp only at hcall ⊢
      omega

/-- States are shown to a callback until it has seen enough. -/
def showing (cb : Callback credit State Bool) : Repetition σ (Except SessionError Unit × σ) where
  body := display cb
  rank m e := e.supply + credit m
  rank_lt := display_rank_lt

theorem showing_run (cb : Callback credit State Bool) (m : σ) (e : Engine) :
    ((showing cb).procedure m).run e = together (Robot.showStates cb e m) := by
  fun_induction Robot.showStates cb e m with
  | case1 e m err e₁ hupdate | case2 e m e₁ hupdate =>
      rw [Repetition.procedure_eq]
      simp only [run_bind, showing, display, update, hupdate]
      rfl
  | case3 e m s e₁ hupdate m₁ e₂ hcall ih =>
      rw [← ih, Repetition.procedure_eq, run_bind]
      simp only [run_bind, showing, display, update, hupdate, callback, hcall]
      rfl
  | case4 e m s e₁ hupdate m₁ e₂ hcall =>
      rw [Repetition.procedure_eq]
      simp only [run_bind, showing, display, update, hupdate, callback, hcall]
      rfl

theorem parallel_showing {cb₁ : Callback credit₁ State Bool} {cb₂ : Callback credit₂ State Bool}
    (h : cb₁.InStep cb₂) (m : σ) :
    Parallel ((showing cb₁).procedure m) ((showing cb₂).procedure m) := by
  refine parallel_repetition (fun m => ?_) m
  refine (steady_update _ _).parallel.bind fun updated => ?_
  rcases updated with err | _ | s
  · exact steady_pure _
  · exact steady_pure _
  · refine (parallel_callback h s m).bind fun answered => ?_
    rcases answered with ⟨_ | _, m⟩ <;> exact steady_pure _

end Procedure
end ArmControl
