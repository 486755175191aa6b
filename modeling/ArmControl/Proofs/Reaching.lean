import ArmControl.Proofs.Lifecycle

/-! # Where turns lead

A client leads the engine from one call to the next, and meanwhile things happen on the link; these
are the turns of a session.  A control loop makes its calls itself, but they are calls like any
other, so it leads the engine nowhere that turns do not lead (`run_reaches`).  What holds of every
engine that turns lead to holds before and behind control loops as well. -/

namespace ArmControl

namespace Engine

variable {e e' e₁ : Engine}

/-- Some turns lead from the one engine to the other. -/
def Reaches (e e' : Engine) : Prop := ∃ turns, e.after turns = e'

namespace Reaches

theorem refl (e : Engine) : e.Reaches e := ⟨[], rfl⟩

theorem trans (h : e.Reaches e₁) (h' : e₁.Reaches e') : e.Reaches e' := by
  obtain ⟨a, rfl⟩ := h
  obtain ⟨b, rfl⟩ := h'
  exact ⟨a ++ b, List.foldl_append⟩

theorem of_perform (call : Call) (e : Engine) : e.Reaches (e.perform call).2 := ⟨[.call call], rfl⟩

theorem orderly (h : e.Reaches e') (he : e.Orderly) : e'.Orderly := by
  obtain ⟨turns, rfl⟩ := h
  exact he.after turns

end Reaches

theorem reaches_update {motion : Option MotionCommand} {torques : Option Torques}
    {result : Except SessionError (Option State)} (h : e.update motion torques = (result, e')) :
    e.Reaches e' := by
  have hreaches := Reaches.of_perform (.update motion torques) e
  simp only [perform, h] at hreaches
  exact hreaches

theorem reaches_startMotion {controller : ControllerMode} {motion : MotionMode}
    {path goal : Deviation} {result : Except SessionError UInt32}
    (h : e.startMotion controller motion path goal = (result, e')) : e.Reaches e' := by
  have hreaches := Reaches.of_perform (.startMotion controller motion path goal) e
  simp only [perform, h] at hreaches
  exact hreaches

end Engine

/-! ### Control loops -/

namespace Callback

variable {σ ι ρ : Type} {credit : σ → Nat}

theorem call_reaches {cb : Callback credit ι ρ} {input : ι} {e e' : Engine} {m m' : σ} {answer : ρ}
    (h : cb.call input e m = (answer, m', e')) : e.Reaches e' := by
  obtain ⟨hs, heq, -⟩ := cb.outside input e m
  rw [h] at heq
  exact ⟨[.happen hs], heq.symm⟩

end Callback

namespace ControlLoop

variable {σ : Type} {credit : σ → Nat} (steering : Steering credit)

theorem cycles_reaches (id : UInt32) (s : State) (previous : UInt64) (last : LoopCommand)
    (e : Engine) (m : σ) : e.Reaches (cycles steering id s previous last e m).2.2 := by
  fun_induction cycles steering id s previous last e m with
  | case1 s previous last e m err m₁ e₁ hcall => exact Callback.call_reaches hcall
  | case2 s previous last e m m₁ e₁ hcall result e₂ hfinish =>
      have hreaches := Engine.Reaches.of_perform (.finishMotion id last.motion last.torques) e₁
      simp only [Engine.perform, hfinish] at hreaches
      exact (Callback.call_reaches hcall).trans hreaches
  | case3 s previous last e m command m₁ e₁ hcall err hvalid => exact Callback.call_reaches hcall
  | case4 s previous last e m command m₁ e₁ hcall hvalid s' e₂ hupdate ih =>
      exact ((Callback.call_reaches hcall).trans (Engine.reaches_update hupdate)).trans ih
  | case5 s previous last e m command m₁ e₁ hcall hvalid e₂ hupdate =>
      exact (Callback.call_reaches hcall).trans (Engine.reaches_update hupdate)
  | case6 s previous last e m command m₁ e₁ hcall hvalid err e₂ hupdate =>
      exact (Callback.call_reaches hcall).trans (Engine.reaches_update hupdate)

theorem spin_reaches (id : UInt32) (e : Engine) (m : σ) :
    e.Reaches (spin steering id e m).2.2 := by
  unfold spin
  cases e.lastState with
  | some s => exact cycles_reaches steering id s s.messageId {} e m
  | none =>
      dsimp only
      rcases hupdate : e.update none none with ⟨err | _ | s, e₁⟩
      · exact Engine.reaches_update hupdate
      · exact Engine.reaches_update hupdate
      · exact (Engine.reaches_update hupdate).trans
          (cycles_reaches steering id s s.messageId {} e₁ m)

/-- A control loop leads the engine nowhere that turns do not lead. -/
theorem run_reaches (controller : ControllerMode) (motion : MotionMode) (e : Engine) (m : σ) :
    e.Reaches (run controller motion steering e m).2.2 := by
  unfold run
  rcases e.raisePriority with err | _
  · exact .refl e
  · dsimp only
    rcases hstart : e.startMotion controller motion e.settings.path e.settings.goal with
      ⟨err | id, e₁⟩
    · exact Engine.reaches_startMotion hstart
    · have hspin := (Engine.reaches_startMotion hstart).trans (spin_reaches steering id e₁ m)
      dsimp only
      generalize spin steering id e₁ m = spun at hspin ⊢
      rcases spun with ⟨err | _, m₁, e₂⟩
      · exact hspin.trans (.of_perform .cancelMotion e₂)
      · exact hspin

end ControlLoop

end ArmControl
