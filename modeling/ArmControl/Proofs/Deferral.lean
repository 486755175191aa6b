import ArmControl.Proofs.History

/-! # When an error is raised

A cycle raises an error of the motion either because of what it has just received, and then the
generator is gone, or because the error was deferred to it.  While a generator is active no error is
deferred (`guarded_defers`); but a start leaves alone what was deferred before.

So when a cycle raises an error of the motion, no generator is active afterwards, unless the error
is `Overdue`: a start has succeeded while it was still to be raised.  `motion_error_ends` states
this for every engine that can be reached. -/

namespace ArmControl

/-- A far end that lets a generator start twice, and ends the first one while it is asked for a
controller. -/
def FarEnd.interrupting : FarEnd where
  script :=
    let resting := { State.initial with controllerMode := .cartesianImpedance }
    let starting := [.reply (.startMotion .success) none 0,
      .nextState { State.initial with motionMode := .jointPosition } 1]
    [(.request .startMotion, starting),
      (.request .setController, [.nextState resting 1, .reply (.setController .success) none 0]),
      (.request .startMotion, starting)]

namespace Engine

variable {e e' e₀ : Engine} {call : Call} {turns : List Turn} {err : SessionError}

/-! ### One call -/

/-- While a generator is active, no error is to be raised other than the one given. -/
def Defers (deferred : Option SessionError) (e : Engine) : Prop :=
  e.motion.status ≠ .notStarted → e.motion.deferred = none ∨ e.motion.deferred = deferred

theorem Defers.of_motion {deferred : Option SessionError} (h : Defers deferred e)
    (hmotion : e'.motion = e.motion) : Defers deferred e' := by
  unfold Defers
  rw [hmotion]
  exact h

/-- An exchange of the status of an active generator for that of another changes nothing. -/
theorem Defers.exchange {deferred : Option SessionError} {a b : MotionStatus}
    (h : Defers deferred e) (ha : a ≠ .notStarted) :
    Defers deferred (e.withMotion (e.motion.exchange a b)) := by
  intro hactive
  refine h fun hnone => hactive ?_
  have hne : e.motion.status ≠ a := hnone ▸ ha.symm
  rw [Motion.exchange_of_ne hne]
  exact hnone

/-- An error that is deferred ends the generator. -/
theorem guarded_defers (deferred : Option SessionError) : Guarded (Defers deferred) where
  gone _ _ hnone := fun hactive => absurd hnone hactive
  quiet h _ _ _ hmotion := h.of_motion hmotion
  state h hreceives _ _ _ := h.of_motion hreceives.motion
  reply h hreceives _ _ := h.of_motion hreceives.motion
  confirm h hstarting _ _ := fun _ => h (by simp [hstarting])
  halt h := h.exchange (by decide)
  note current outcome deferred' lastCommand h hdeferred := fun hactive => by
    rcases hdeferred with rfl | rfl
    · exact .inl rfl
    · exact h hactive

/-- A call that starts no generator defers no error while one is active. -/
theorem defers_perform (hstart : ¬ call.Starts) : Defers e.motion.deferred (e.perform call).2 :=
  (guarded_defers e.motion.deferred).standing.perform_of_resume (fun h => h.exchange (by decide))
    hstart fun _ => .inr rfl

/-! ### A session -/

/-- Some start has succeeded while `err` was still to be raised, and it has not been raised since,
with a generator active all the time. -/
def Overdue (err : SessionError) : Engine → List Turn → Prop :=
  Since (fun e call => call.Starts ∧ (e.perform call).1 = .ok ())
    fun e => e.motion.status ≠ .notStarted ∧ e.motion.deferred = some err

/-- Between two calls an error is to be raised with a generator active only if it is overdue. -/
theorem overdue_of_deferred (h₀ : e₀.motion = {}) (turns : List Turn)
    (hactive : (e₀.after turns).motion.status ≠ .notStarted)
    (hdeferred : (e₀.after turns).motion.deferred = some err) : Overdue err e₀ turns := by
  refine since_start h₀ And.left ?_ turns ⟨hactive, hdeferred⟩
  rintro e t hbefore ⟨hafter, hdeferred⟩
  refine ⟨hbefore, ?_⟩
  cases t with
  | happen happenings => exact hdeferred
  | call call =>
      change (e.perform call).2.motion.deferred = some err at hdeferred
      by_cases hstart : call.Starts
      · obtain ⟨refusal, hrefused⟩ := perform_of_busy hstart hbefore
        rwa [hrefused] at hdeferred
      · have hsame := defers_perform hstart hafter
        rw [hdeferred] at hsame
        exact (hsame.resolve_left nofun).symm

/-! ### The cycle that raises it -/

variable {motion : Option MotionCommand} {torques : Option Torques} {cause : MotionFault}

theorem poll_motion_error (h : e.poll = (.error (.motion cause), e')) :
    e'.motion.status = .notStarted := by
  obtain ⟨j, outcome, -, -, -, hpolled⟩ := poll_cases h
  generalize e'.motion = m' at hpolled
  cases hpolled with
  | broken _ hfatal => simp [SessionError.isFatal] at hfatal
  | mismatch _ hobserve =>
      rcases Motion.observe_cases hobserve with ⟨h, -⟩ | ⟨h, -⟩ | ⟨h, -⟩ | ⟨-, -, -, -, -, hreset⟩
      · cases h
      · cases h
      · cases h
      · rw [hreset]
        rfl
  | rejected _ hhandle =>
      rcases Motion.handle_cases hhandle with ⟨h, -⟩ | ⟨h, -⟩ | ⟨-, -, -, -, hreset⟩ |
        ⟨-, -, -, -, hreset⟩
      · cases h
      · cases h
      · rw [hreset]
        rfl
      · rw [hreset]
        rfl

/-- An error of the motion that a cycle raises was deferred to it, or has ended the generator. -/
theorem update_motion_error (h : e.update motion torques = (.error (.motion cause), e')) :
    e'.motion.status = .notStarted ∨
      e.motion.deferred = some (.motion cause) ∧ e'.motion.status = e.motion.status := by
  cases hdeferred : e.motion.deferred with
  | some err =>
      rw [update_of_deferred hdeferred] at h
      obtain ⟨hcause, rfl⟩ := Prod.mk.inj h
      obtain rfl := Except.error.inj hcause
      exact .inr ⟨rfl, rfl⟩
  | none =>
      rcases update_cases hdeferred h with ⟨_, hclosed, -⟩ | ⟨_, e₁, -, hpoll⟩
      · cases hclosed
      · exact .inl (poll_motion_error hpoll)

/-- When a cycle raises an error of the motion, no generator is active any more, unless the error is
overdue: a start has succeeded before it was raised, and that generator goes on. -/
theorem motion_error_ends (session : Session) (settings : Settings) (clock : Clock)
    (turns : List Turn) (motion : Option MotionCommand) (torques : Option Torques)
    (cause : MotionFault) (e' : Engine) :
    let e₀ := Engine.start session settings clock
    (e₀.after turns).update motion torques = (.error (.motion cause), e') →
      (¬ Overdue (.motion cause) e₀ turns ∧ e'.motion.status = .notStarted ∧
        e'.motion.status.isRunning = false) ∨
      (Overdue (.motion cause) e₀ turns ∧ e'.motion.status.isRunning = true) := by
  intro e₀ hupdate
  have horderly : (e₀.after turns).Orderly := (orderly_start session settings clock).after turns
  by_cases hoverdue : Overdue (.motion cause) e₀ turns
  · obtain ⟨hactive, hdeferred⟩ := hoverdue.now
    rw [update_of_deferred hdeferred] at hupdate
    obtain ⟨-, rfl⟩ := Prod.mk.inj hupdate
    refine .inr ⟨hoverdue, ?_⟩
    rcases horderly.active hactive with hs | hs
    · simp [withMotion, hs, MotionStatus.isRunning]
    · simp [withMotion, hs, MotionStatus.isRunning]
  · have hgone : e'.motion.status = .notStarted := by
      rcases update_motion_error hupdate with hgone | ⟨hdeferred, hsame⟩
      · exact hgone
      · by_contra hactive
        exact hoverdue (overdue_of_deferred rfl turns (hsame ▸ hactive) hdeferred)
    exact .inl ⟨hoverdue, hgone, by rw [hgone]; rfl⟩

theorem motion_error_ends_setController :
    let e₀ := Engine.start { link := { farEnd := .interrupting } } {} default
    let turns : List Turn :=
      [.call (.startGenerator .jointPosition), .call (.setController .cartesianImpedance)]
    ∃ cause e', (e₀.after turns).update none none = (.error (.motion cause), e') ∧
      ((¬ Overdue (.motion cause) e₀ turns ∧ e'.motion.status = .notStarted ∧
          e'.motion.status.isRunning = false) ∨
        (Overdue (.motion cause) e₀ turns ∧ e'.motion.status.isRunning = true)) := by
  intro e₀ turns
  have hraised : ((e₀.after turns).update none none).1 =
      .error (.motion (.stoppedUnexpectedly .jointPosition .idle)) := by decide +kernel
  have hupdate : (e₀.after turns).update none none =
      (.error (.motion (.stoppedUnexpectedly .jointPosition .idle)), _) := Prod.ext hraised rfl
  exact ⟨_, _, hupdate, motion_error_ends _ _ _ turns none none _ _ hupdate⟩

/-- A generator that was started over an error keeps running when the error is raised. -/
theorem motion_error_while_running :
    let e := (Engine.start { link := { farEnd := .interrupting } } {} default).after
      [.call (.startGenerator .jointPosition), .call (.setController .cartesianImpedance),
        .call (.startGenerator .jointPosition)]
    (e.update none none).1 = .error (.motion (.stoppedUnexpectedly .jointPosition .idle)) ∧
      (e.update none none).2.motion.status = .running := by
  decide +kernel

end Engine
end ArmControl
