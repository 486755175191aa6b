import ArmControl.Proofs.Launch
import ArmControl.Robot.Basic

/-! # Callbacks that keep a record

A recorded callback does what the callback does and writes down every call in its memory.  What it
adds to the memory changes nothing else: erasing it from the run of a loop that uses the recorded
callback gives the run of the loop that uses the plain one (`cycles_erase`, `run_erase`,
`showStates_erase`), and likewise for the operations of the robot (`operate_erase`). -/

namespace ArmControl

/-! ### Erasing a part of the memory -/

/-- The outcome of a computation, with its memory reduced by `π`. -/
def erase {α σ σ' β : Type} (π : σ' → σ) (outcome : α × σ' × β) : α × σ × β :=
  (outcome.1, π outcome.2.1, outcome.2.2)

namespace Callback

variable {σ σ' : Type} {credit : σ → Nat} {credit' : σ' → Nat} {ι ρ ρ' : Type}

/-- The callbacks do the same, up to what `π` takes away from the memory of `cb'`. -/
def Erases (π : σ' → σ) (cb' : Callback credit' ι ρ) (cb : Callback credit ι ρ) : Prop :=
  ∀ input e m, cb.call input e (π m) = erase π (cb'.call input e m)

variable {π : σ' → σ} {cb' : Callback credit' ι ρ} {cb : Callback credit ι ρ}

theorem Erases.map (h : Erases π cb' cb) (f : ι → ρ → ρ') : Erases π (cb'.map f) (cb.map f) := by
  intro input e m
  simp only [Callback.map, h input e m]
  rfl

theorem Erases.both {second' : Callback credit' ι ρ'} {second : Callback credit ι ρ'}
    (h : Erases π cb' cb) (hsecond : Erases π second' second) :
    Erases π (cb'.both second') (cb.both second) := by
  intro input e m
  simp only [Callback.both, h input e m, erase, hsecond input _ _]

/-- One call of a callback. -/
structure Record (ι ρ : Type) where
  input : ι
  answer : ρ
  /-- The journal of the link at the moment at which the callback has answered. -/
  journal : Journal

/-- The callback with a record of its calls beside its memory. -/
def recorded (cb : Callback credit ι ρ) :
    Callback (fun p : σ × List (Record ι ρ) => credit p.1) ι ρ where
  call input e p :=
    let (answer, m, e) := cb.call input e p.1
    (answer, (m, p.2 ++ [⟨input, answer, e.link.journal⟩]), e)
  outside input e p := cb.outside input e p.1

theorem recorded_erases (cb : Callback credit ι ρ) : Erases Prod.fst cb.recorded cb :=
  fun _ _ _ => rfl

theorem recorded_call {input : ι} {e e' : Engine} {p p' : σ × List (Record ι ρ)} {answer : ρ}
    (h : cb.recorded.call input e p = (answer, p', e')) :
    p'.2 = p.2 ++ [⟨input, answer, e'.link.journal⟩] := by
  simp only [recorded, Prod.mk.injEq] at h
  obtain ⟨rfl, rfl, rfl⟩ := h
  rfl

/-- While a callback runs, nothing is sent and no message is taken. -/
theorem call_passage {input : ι} {e e' : Engine} {m m' : σ} {answer : ρ}
    (h : cb.call input e m = (answer, m', e')) :
    ∃ j, Engine.Passage e j e' ∧ j.Silent ∧ j.events = [] ∧ e'.motion = e.motion := by
  obtain ⟨hs, heq, -⟩ := cb.outside input e m
  rw [h] at heq
  obtain rfl : e' = e.witness hs := heq
  obtain ⟨j, hpassage, hsilent, hevents⟩ := e.passage_witness hs
  exact ⟨j, hpassage, hsilent, hevents, rfl⟩

/-- Whatever is called, `log` finds `f` of the input added to the memory. -/
def Logs {κ : Type} (log : σ → List κ) (f : ι → List κ) (cb : Callback credit ι ρ) : Prop :=
  ∀ input e m, log (cb.call input e m).2.1 = log m ++ f input

variable {κ : Type} {log : σ → List κ} {f g : ι → List κ}

theorem Logs.map (h : Logs log f cb) (k : ι → ρ → ρ') : Logs log f (cb.map k) := h

theorem Logs.both {second : Callback credit ι ρ'} (h : Logs log f cb)
    (hsecond : Logs log g second) :
    Logs log (fun input => f input ++ g input) (cb.both second) := by
  intro input e m
  simp only [Callback.both]
  rw [hsecond input _ _, h input e m, List.append_assoc]

end Callback

namespace ControlLoop

variable {σ σ' : Type} {credit : σ → Nat} {credit' : σ' → Nat} {π : σ' → σ}
  {steering' : Steering credit'} {steering : Steering credit}

theorem cycles_eq (id : UInt32) (s : State) (previous : UInt64) (last : LoopCommand) (e : Engine)
    (m : σ) : cycles steering id s previous last e m =
    match steering.call ⟨s, Tick.between previous s.messageId⟩ e m with
    | (.error err, m₁, e₁) => (.error err, m₁, e₁)
    | (.ok .stop, m₁, e₁) =>
      let (result, e₂) := e₁.finishMotion id last.motion last.torques
      (result, m₁, e₂)
    | (.ok (.proceed command), m₁, e₁) =>
      match command.validate with
      | .error err => (.error err, m₁, e₁)
      | .ok () =>
        match e₁.update command.motion command.torques with
        | (.ok (some s'), e₂) => cycles steering id s' s.messageId command e₂ m₁
        | (.ok none, e₂) => (.error .closed, m₁, e₂)
        | (.error err, e₂) => (.error err, m₁, e₂) := by
  rw [cycles]
  generalize steering.call ⟨s, Tick.between previous s.messageId⟩ e m = called
  rcases called with ⟨err | command | _, m₁, e₁⟩
  · rfl
  · simp only
    generalize command.validate = valid
    rcases valid with err | ⟨⟩
    · rfl
    · simp only
      generalize e₁.update command.motion command.torques = updated
      rcases updated with ⟨err | _ | s', e₂⟩ <;> rfl
  · rfl

theorem cycles_erase (h : Callback.Erases π steering' steering) (id : UInt32) (s : State)
    (previous : UInt64) (last : LoopCommand) (e : Engine) (m : σ') :
    cycles steering id s previous last e (π m) =
      erase π (cycles steering' id s previous last e m) := by
  fun_induction cycles steering' id s previous last e m with
  | case1 s previous last e m err m₁ e₁ hcall => simp [cycles_eq, h _ e m, hcall, erase]
  | case2 s previous last e m m₁ e₁ hcall result e₂ hfinish =>
      simp [cycles_eq, h _ e m, hcall, erase, hfinish]
  | case3 s previous last e m command m₁ e₁ hcall err hvalid =>
      simp [cycles_eq, h _ e m, hcall, erase, hvalid]
  | case4 s previous last e m command m₁ e₁ hcall hvalid s' e₂ hupdate ih =>
      rw [cycles_eq, h _ e m, hcall]
      simp only [erase, hvalid, hupdate] at ih ⊢
      exact ih
  | case5 s previous last e m command m₁ e₁ hcall hvalid e₂ hupdate =>
      simp [cycles_eq, h _ e m, hcall, erase, hvalid, hupdate]
  | case6 s previous last e m command m₁ e₁ hcall hvalid err e₂ hupdate =>
      simp [cycles_eq, h _ e m, hcall, erase, hvalid, hupdate]

theorem spin_erase (h : Callback.Erases π steering' steering) (id : UInt32) (e : Engine) (m : σ') :
    spin steering id e (π m) = erase π (spin steering' id e m) := by
  unfold spin
  split
  · exact cycles_erase h _ _ _ _ _ _
  · split
    · exact cycles_erase h _ _ _ _ _ _
    · rfl
    · rfl

theorem run_erase (h : Callback.Erases π steering' steering) (controller : ControllerMode)
    (motion : MotionMode) (e : Engine) (m : σ') :
    run controller motion steering e (π m) = erase π (run controller motion steering' e m) := by
  unfold run
  split
  · rfl
  · split
    · rfl
    · rename_i id e₁ hstart
      rw [spin_erase h]
      rcases spin steering' id e₁ m with ⟨result, m₁, e₂⟩
      cases result <;> rfl

end ControlLoop

namespace Robot

variable {σ σ' : Type} {credit : σ → Nat} {credit' : σ' → Nat} {π : σ' → σ} {ι ρ : Type}

theorem showStates_eq (cb : ArmControl.Callback credit State Bool) (e : Engine) (m : σ) :
    showStates cb e m =
    match e.update none none with
    | (.error err, e₁) => (.error err, m, e₁)
    | (.ok none, e₁) => (.ok (), m, e₁)
    | (.ok (some s), e₁) =>
      match cb.call s e₁ m with
      | (true, m₁, e₂) => showStates cb e₂ m₁
      | (false, m₁, e₂) => (.ok (), m₁, e₂) := by
  rw [showStates]
  generalize e.update none none = updated
  rcases updated with ⟨err | _ | s, e₁⟩
  · rfl
  · rfl
  · simp only
    generalize cb.call s e₁ m = called
    rcases called with ⟨_ | _, m₁, e₂⟩ <;> rfl

theorem showStates_erase {cb' : ArmControl.Callback credit' State Bool}
    {cb : ArmControl.Callback credit State Bool} (h : ArmControl.Callback.Erases π cb' cb)
    (e : Engine) (m : σ') :
    showStates cb e (π m) = erase π (showStates cb' e m) := by
  fun_induction showStates cb' e m with
  | case1 e m err e₁ hupdate => simp [showStates_eq, hupdate, erase]
  | case2 e m e₁ hupdate => simp [showStates_eq, hupdate, erase]
  | case3 e m s e₁ hupdate m₁ e₂ hcall ih =>
      rw [showStates_eq, hupdate]
      simp only [h s e₁ m, hcall, erase] at ih ⊢
      exact ih
  | case4 e m s e₁ hupdate m₁ e₂ hcall =>
      rw [showStates_eq, hupdate]
      simp [h s e₁ m, hcall, erase]

theorem operate_erase {α : Type} {op : Operation}
    {activity' : Engine → Operation × σ' → Except SessionError α × (Operation × σ') × Engine}
    {activity : Engine → Operation × σ → Except SessionError α × (Operation × σ) × Engine}
    (h : ∀ e p, activity e (Prod.map id π p) = erase (Prod.map id π) (activity' e p))
    (r : Robot) (m : σ') : operate op activity r (π m) = erase π (operate op activity' r m) := by
  unfold operate
  split
  · rfl
  · have := h r.engine (op, m)
    simp only [Prod.map, id] at this
    rw [this]
    rfl

section

variable {cb' : Callback credit' State Bool} {cb : Callback credit State Bool}

theorem read_erase (h : ArmControl.Callback.Erases (Prod.map id π) cb'.onEngine cb.onEngine)
    (r : Robot) (m : σ') : r.read cb (π m) = erase π (r.read cb' m) :=
  operate_erase (showStates_erase h) r m

theorem controlIdle_erase (h : ArmControl.Callback.Erases (Prod.map id π) cb'.onEngine cb.onEngine)
    (controller : ControllerMode) (r : Robot) (m : σ') :
    r.controlIdle controller cb (π m) = erase π (r.controlIdle controller cb' m) := by
  unfold controlIdle
  refine operate_erase (fun e p => ?_) r m
  split
  · rfl
  · split
    · exact showStates_erase h _ _
    · rename_i e₁ _ _ s hs
      rw [h s e₁ p]
      rcases cb'.onEngine.call s e₁ p with ⟨answer, p', e₂⟩
      cases answer with
      | true => exact showStates_erase h e₂ p'
      | false => rfl

end

theorem steer_erase {steering' : ControlLoop.Steering fun p : Operation × σ' => credit' p.2}
    {steering : ControlLoop.Steering fun p : Operation × σ => credit p.2}
    (h : ArmControl.Callback.Erases (Prod.map id π) steering' steering)
    (controller : ControllerMode) (motion : MotionMode) (r : Robot) (m : σ') :
    r.steer controller motion steering (π m) = erase π (r.steer controller motion steering' m) :=
  operate_erase (ControlLoop.run_erase h controller motion) r m

theorem controlMotion_erase {type : MotionType} {cb' : Callback credit' Tick (Step (Target type))}
    {cb : Callback credit Tick (Step (Target type))}
    (h : ArmControl.Callback.Erases (Prod.map id π) cb'.onEngine cb.onEngine)
    (controller : ControllerMode) (r : Robot) (m : σ') :
    r.controlMotion controller cb (π m) = erase π (r.controlMotion controller cb' m) :=
  steer_erase (h.map _) controller type.mode r m

theorem controlTorques_erase {cb' : Callback credit' Tick (Step Torques)}
    {cb : Callback credit Tick (Step Torques)}
    (h : ArmControl.Callback.Erases (Prod.map id π) cb'.onEngine cb.onEngine) (r : Robot)
    (m : σ') : r.controlTorques cb (π m) = erase π (r.controlTorques cb' m) :=
  steer_erase (h.map _) .external .idle r m

theorem controlTorquesWithMotion_erase {type : MotionType}
    {torque' : Callback credit' Tick (Step Torques)} {torque : Callback credit Tick (Step Torques)}
    {motion' : Callback credit' Tick (Step (Target type))}
    {motion : Callback credit Tick (Step (Target type))}
    (htorque : ArmControl.Callback.Erases (Prod.map id π) torque'.onEngine torque.onEngine)
    (hmotion : ArmControl.Callback.Erases (Prod.map id π) motion'.onEngine motion.onEngine)
    (r : Robot) (m : σ') : r.controlTorquesWithMotion torque motion (π m) =
      erase π (r.controlTorquesWithMotion torque' motion' m) :=
  steer_erase ((hmotion.both htorque).map _) .external type.mode r m

/-- The callback with the states of its inputs noted beside its memory. -/
def Callback.noted (cb : Callback credit ι ρ) (state : ι → State) :
    Callback (fun p : σ × List State => credit p.1) ι ρ where
  call input r p :=
    let (answer, m, r) := cb.call input r p.1
    (answer, (m, p.2 ++ [state input]), r)
  outside input r p := cb.outside input r p.1

theorem Callback.noted_erases (cb : Callback credit ι ρ) (state : ι → State) :
    ArmControl.Callback.Erases (Prod.map id Prod.fst) (cb.noted state).onEngine cb.onEngine :=
  fun _ _ _ => rfl

theorem Callback.noted_logs (cb : Callback credit ι ρ) (state : ι → State) :
    (cb.noted state).onEngine.Logs (fun p => p.2.2) fun input => [state input] :=
  fun _ _ _ => rfl

end Robot
end ArmControl
