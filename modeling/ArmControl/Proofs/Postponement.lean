import ArmControl.Proofs.History
import ArmControl.Proofs.Obedience

/-! # How long an error stays deferred

An error that could not be raised is deferred, and stays so (`perform_deferred`) until it is raised
or dropped.  Only a cycle raises it (`Engine.Raises`), also the first cycle in which a motion is
finished (`finishMotion_of_deferred`), and only the cancellation of a motion drops it
(`Engine.Drops`), also when a motion is cancelled because it was not confirmed. -/

namespace ArmControl

namespace Motion

variable {m : Motion} {err : SessionError}

theorem observe_deferred (mode : MotionMode) (m : Motion) :
    (m.observe mode).2.deferred = m.deferred := by
  rcases h : m.observe mode with ⟨result, m'⟩
  rcases observe_cases h with ⟨-, rfl, -⟩ | ⟨-, -, -, rfl⟩ | ⟨-, -, -, rfl⟩ |
    ⟨-, -, -, -, -, rfl⟩ <;> rfl

theorem handle_deferred (header : Header) (reply : Reply) (m : Motion) :
    (m.handle header reply).2.deferred = m.deferred := by
  rcases h : m.handle header reply with ⟨result, m'⟩
  rcases handle_cases h with ⟨-, rfl⟩ | ⟨-, -, -, rfl⟩ | ⟨-, -, -, -, rfl⟩ | ⟨-, -, -, -, rfl⟩ <;>
    rfl

theorem settle_deferred (id : UInt32) (m : Motion) : (m.settle id).2.deferred = m.deferred := by
  unfold settle
  split
  · rfl
  · rfl
  · split <;> rfl

/-- A cycle defers nothing, and leaves alone what is deferred. -/
theorem judgeState_deferred (event : Event) (m : Motion) :
    (Engine.judgeState event m).2.deferred = m.deferred := by
  cases event with
  | state s =>
      rw [← m.observe_deferred s.motionMode]
      rcases h : m.observe s.motionMode with ⟨_ | _, m'⟩ <;> simp only [Engine.judgeState, h]
  | reply header reply =>
      rw [← m.handle_deferred header reply]
      rcases h : m.handle header reply with ⟨_ | _, m'⟩ <;> simp only [Engine.judgeState, h]

theorem judgeOutcome_deferred (id : UInt32) (event : Event) (m : Motion) :
    (Engine.judgeOutcome id event m).2.deferred = m.deferred := by
  cases event with
  | state s =>
      rw [← m.observe_deferred s.motionMode]
      rcases h : m.observe s.motionMode with ⟨_ | _, m'⟩ <;>
        simp only [Engine.judgeOutcome, h, settle_deferred]
  | reply header reply =>
      rw [← m.handle_deferred header reply]
      rcases h : m.handle header reply with ⟨_ | _, m'⟩ <;>
        simp only [Engine.judgeOutcome, h, settle_deferred]

/-- While an error is deferred no other one takes its place. -/
theorem judgeReply_deferred (kind : FrameKind) (id : UInt32) (event : Event)
    (h : m.deferred = some err) : (Engine.judgeReply kind id event m).2.deferred = some err := by
  have hdefer {checked : Except SessionError Unit × Motion}
      (hchecked : checked.2.deferred = m.deferred) : (defer checked).deferred = some err := by
    have hkept := hchecked.trans h
    rcases checked with ⟨_ | _, m'⟩ <;> simp_all [defer]
  cases event with
  | state s => exact hdefer (m.observe_deferred s.motionMode)
  | reply header reply =>
      simp only [Engine.judgeReply]
      split
      · exact h
      · exact hdefer (m.handle_deferred header reply)

end Motion

namespace Engine

variable {e e' : Engine} {err : SessionError} {call : Call}

/-! ### Waits and requests -/

theorem poll_deferred (e : Engine) : e.poll.2.motion.deferred = e.motion.deferred :=
  wait_motion judgeState (.ok none) e (P := fun m => m.deferred = e.motion.deferred)
    (fun event m h => (m.judgeState_deferred event).trans h) rfl

theorem awaitOutcome_deferred (id : UInt32) (e : Engine) :
    (e.awaitOutcome id).2.motion.deferred = e.motion.deferred := by
  have hsettle := e.motion.settle_deferred id
  unfold awaitOutcome
  generalize e.motion.settle id = settled at hsettle ⊢
  rcases settled with ⟨_ | result, m⟩
  · exact wait_motion (judgeOutcome id) (.error .closed) (e.withMotion m)
      (P := fun m => m.deferred = e.motion.deferred)
      (fun event m h => (m.judgeOutcome_deferred id event).trans h) hsettle
  · exact hsettle

theorem execute_deferred (request : Request) (h : e.motion.deferred = some err) :
    (e.execute request).2.motion.deferred = some err :=
  e.execute_motion request (P := fun m => m.deferred = some err)
    (fun kind id event _ h => Motion.judgeReply_deferred kind id event h) h

/-! ### Confirmations -/

/-- A generator that is starting keeps starting or runs when a state is accepted. -/
theorem poll_starting {s : State} (h : e.poll = (.ok (some s), e'))
    (hstarting : e.motion.status = .starting) :
    e'.motion.status = .starting ∨ e'.motion.status = .running := by
  obtain ⟨j, outcome, -, -, -, hpolled⟩ := poll_cases h
  generalize e'.motion = m' at hpolled
  cases hpolled with
  | state _ hobserve =>
      rcases Motion.observe_cases hobserve with ⟨-, rfl, -⟩ | ⟨-, -, -, rfl⟩ | ⟨-, hstopping, -⟩ |
        ⟨_, hresult, -⟩
      · exact .inl hstarting
      · exact .inr rfl
      · simp [hstarting] at hstopping
      · cases hresult

theorem awaitGenerator_deferred
    (h : e.motion.status = .starting ∨ e.motion.status = .running) :
    e.awaitGenerator.2.motion.deferred = e.motion.deferred := by
  fun_induction awaitGenerator e with
  | case1 e hrunning => rfl
  | case2 e hstarting e₁ hlook =>
      change e₁.motion.deferred = _
      rw [(look_eq hlook).1]
  | case3 e hstarting e₁ hlook s e₂ hpoll ih =>
      obtain ⟨hmotion, -⟩ := look_eq hlook
      have hdeferred := e₁.poll_deferred
      rw [hpoll, hmotion] at hdeferred
      exact (ih (poll_starting hpoll (hmotion ▸ hstarting))).trans hdeferred
  | case4 e hstarting e₁ hlook e₂ hpoll | case5 e hstarting e₁ hlook err e₂ hpoll =>
      have hdeferred := e₁.poll_deferred
      rw [hpoll, (look_eq hlook).1] at hdeferred
      exact hdeferred
  | case6 e hrunning hstarting => exact (h.elim hstarting hrunning).elim

theorem confirmGenerator_deferred (since : Option UInt64) (h : e.motion.status = .starting) :
    (e.confirmGenerator since).2.motion.deferred = e.motion.deferred := by
  unfold confirmGenerator
  split
  · rename_i s _
    split
    · have hdeferred := e.motion.observe_deferred s.motionMode
      rcases hobserve : e.motion.observe s.motionMode with ⟨_ | _, m⟩ <;> rw [hobserve] at hdeferred
      · exact hdeferred
      · refine (awaitGenerator_deferred ?_).trans hdeferred
        rcases Motion.observe_cases hobserve with ⟨-, rfl, -⟩ | ⟨-, -, -, rfl⟩ |
          ⟨-, hstopping, -⟩ | ⟨_, hresult, -⟩
        · exact .inl h
        · exact .inr rfl
        · simp [h] at hstopping
        · cases hresult
    · exact awaitGenerator_deferred (.inl h)
  · exact awaitGenerator_deferred (.inl h)

/-! ### Calls -/

/-- This error stays deferred. -/
def StaysDeferred (err : SessionError) (e : Engine) (_ : Journal) (e' : Engine) : Prop :=
  e.motion.deferred = some err → e'.motion.deferred = some err

instance : Composes (StaysDeferred err) where
  refl _ h := h
  trans h₁ h₂ h := h₂ (h₁ h)

theorem calm_staysDeferred : Procedure.Calm (StaysDeferred err) where
  halt _ := ⟨[], id⟩
  resume _ := ⟨[], id⟩
  confirm _ _ := ⟨[], id⟩
  look _ := ⟨[], id⟩
  transmit _ _ := ⟨[], id⟩
  state e := ⟨[], e.poll_deferred.trans⟩
  reply kind id _ e := ⟨[], wait_motion (judgeReply kind id) (.error .closed) e
    (P := fun m => m.deferred = some err)
    fun event _ h => Motion.judgeReply_deferred kind id event h⟩

theorem startGenerator_deferred (type : MotionType) (h : e.motion.deferred = some err) :
    (e.startGenerator type).2.motion.deferred = some err := by
  have hexecute := execute_deferred (.startMotion type) h
  unfold startGenerator
  split
  · exact h
  · simp only
    generalize e.execute (.startMotion type) = answer at hexecute ⊢
    rcases answer with ⟨_ | ⟨id, reply⟩, e₁⟩
    · exact hexecute
    · by_cases hreply : reply = .startMotion .success
      · subst hreply
        exact (confirmGenerator_deferred _ rfl).trans hexecute
      · simpa [hreply] using hexecute

theorem launch_deferred (controller : ControllerMode) (motion : MotionMode) (path goal : Deviation)
    (h : e.motion.deferred = some err) :
    (e.launch controller motion path goal).2.motion.deferred = some err := by
  let e₀ := e.withMotion { e.motion with outcome := none }
  have hexecute := execute_deferred (e := e₀) (.move ⟨controller, motion, path, goal⟩) h
  unfold launch
  split
  · exact h
  · simp only
    change (e₀.execute _).2.motion.deferred = _ at hexecute
    generalize execute (.move ⟨controller, motion, path, goal⟩) _ = answer at hexecute ⊢
    rcases answer with ⟨_ | ⟨id, reply⟩, e₁⟩
    · exact hexecute
    · by_cases hreply : reply = .move .started
      · subst hreply
        let e₂ := e₁.withMotion ({ e₁.motion with current := some id }.begin motion)
        have hconfirm := (confirmGenerator_deferred (e := e₂) e.lastId rfl).trans hexecute
        simp only
        generalize confirmGenerator e.lastId _ = confirmed at hconfirm ⊢
        rcases confirmed with ⟨_ | _, e₃⟩ <;> exact hconfirm
      · simpa [hreply] using hexecute

/-- The first cycle in which a motion is finished raises an error that is deferred. -/
theorem finishMotion_of_deferred {id : UInt32} (motion : Option MotionCommand)
    (torques : Option Torques) (h : e.motion.deferred = some err)
    (hcurrent : e.motion.current = some id)
    (hactive : e.motion.status = .running ∨ e.motion.status = .stopping) :
    e.finishMotion id motion torques = (.error err,
      e.withMotion { e.motion.exchange .running .stopping with deferred := none }) := by
  let e₁ := e.withMotion (e.motion.exchange .running .stopping)
  have hstopping : e₁.motion.status = .stopping := by
    rcases hactive with hstatus | hstatus <;>
      simp [e₁, withMotion, Motion.exchange, MotionStatus.exchange, hstatus]
  have hdrain (finishing : MotionCommand) : e₁.drain finishing torques =
      (.error err, e₁.withMotion { e₁.motion with deferred := none }) := by
    have hupdate : e₁.update (some finishing) torques =
        (.error err, e₁.withMotion { e₁.motion with deferred := none }) := update_of_deferred h
    rw [drain_eq, if_pos hstopping, hupdate]
  simp only [finishMotion, hcurrent, ne_eq, not_true_eq_false, if_false]
  rw [hdrain]
  rfl

theorem finishMotion_deferred {id : UInt32} (motion : Option MotionCommand)
    (torques : Option Torques) (h : e.motion.deferred = some err)
    (hresting : e.motion.current = some id →
      e.motion.status ≠ .running ∧ e.motion.status ≠ .stopping) :
    (e.finishMotion id motion torques).2.motion.deferred = some err := by
  by_cases hcurrent : e.motion.current = some id
  · obtain ⟨hrunning, hstopping⟩ := hresting hcurrent
    have hdrain (finishing : MotionCommand) :
        (e.withMotion e.motion).drain finishing torques = (.ok (), e) := by
      rw [drain_eq]
      exact if_neg hstopping
    simp only [finishMotion, hcurrent, ne_eq, not_true_eq_false, if_false,
      Motion.exchange_of_ne hrunning]
    rw [hdrain]
    exact (awaitOutcome_deferred id e).trans h
  · simpa [finishMotion, hcurrent] using h

/-! ### What becomes of a deferred error -/

/-- The call begins with a cycle, which raises what is deferred. -/
def Raises (e : Engine) : Call → Prop
  | .update .. => True
  | .finishMotion id .. =>
    e.motion.current = some id ∧ (e.motion.status = .running ∨ e.motion.status = .stopping)
  | _ => False

/-- The call cancels a motion, and drops what is deferred. -/
def Drops (e : Engine) : Call → Prop
  | .cancelMotion => True
  | .startMotion controller motion path goal =>
    ∃ id err e', e.launch controller motion path goal = (.ok (id, .error err), e')
  | _ => False

/-- Any other call leaves alone what is deferred. -/
theorem perform_deferred (h : e.motion.deferred = some err) (hraises : ¬ e.Raises call)
    (hdrops : ¬ e.Drops call) : (e.perform call).2.motion.deferred = some err := by
  cases call with
  | update motion torques => exact absurd trivial hraises
  | startGenerator type => exact startGenerator_deferred type h
  | stopGenerator =>
      obtain ⟨_, hstays⟩ := calm_staysDeferred.stopGenerator e
      exact hstays h
  | setController mode =>
      obtain ⟨_, hstays⟩ := calm_staysDeferred.setController mode e
      exact hstays h
  | startMotion controller motion path goal =>
      have hlaunch := launch_deferred controller motion path goal h
      rcases heq : e.launch controller motion path goal with ⟨_ | ⟨id, _ | _⟩, e₁⟩
      · simpa only [perform, startMotion_eq, heq] using hlaunch
      · exact absurd ⟨_, _, _, heq⟩ hdrops
      · simpa only [perform, startMotion_eq, heq] using hlaunch
  | finishMotion id motion torques =>
      refine finishMotion_deferred motion torques h fun hcurrent => ?_
      exact ⟨fun hrunning => hraises ⟨hcurrent, .inl hrunning⟩,
        fun hstopping => hraises ⟨hcurrent, .inr hstopping⟩⟩
  | cancelMotion => exact absurd trivial hdrops

/-- A call that begins with a cycle raises what is deferred, once, and neither sends nor receives
anything. -/
theorem perform_of_raises (h : e.motion.deferred = some err) (hraises : e.Raises call) :
    (e.perform call).1 = .error err ∧ (e.perform call).2.motion.deferred = none ∧
      ∃ m, (e.perform call).2 = e.withMotion m := by
  cases call with
  | update motion torques =>
      simp only [perform, update_of_deferred h]
      exact ⟨rfl, rfl, _, rfl⟩
  | finishMotion id motion torques =>
      simp only [perform, finishMotion_of_deferred motion torques h hraises.1 hraises.2]
      exact ⟨trivial, rfl, _, rfl⟩
  | _ => exact hraises.elim

theorem perform_of_drops (hdrops : e.Drops call) : (e.perform call).2.motion.deferred = none := by
  cases call with
  | startMotion controller motion path goal =>
      obtain ⟨id, err, e', hlaunch⟩ := hdrops
      simp only [perform, startMotion_eq, hlaunch]
      rfl
  | cancelMotion => rfl
  | _ => exact hdrops.elim

/-- Through any turns that neither raise nor drop it, an error stays deferred. -/
theorem after_deferred (h : e.motion.deferred = some err) (turns : List Turn)
    (hturns : ∀ before call later, turns = before ++ .call call :: later →
      ¬ (e.after before).Raises call ∧ ¬ (e.after before).Drops call) :
    (e.after turns).motion.deferred = some err := by
  induction turns using List.reverseRecOn with
  | nil => exact h
  | append_singleton turns t ih =>
      have hbefore := ih fun before call later heq =>
        hturns before call (later ++ [t]) (by simp [heq])
      rw [after_concat]
      cases t with
      | happen happenings => exact hbefore
      | call call =>
          obtain ⟨hraises, hdrops⟩ := hturns turns call [] rfl
          exact perform_deferred hbefore hraises hdrops

end Engine
end ArmControl
