import ArmControl.Proofs.Lifecycle

/-! # What the engine does while no motion is in progress

Between two operations of a user the engine knows of no motion at all.  From there, waiting for a
state accepts a state only to give it (`poll_of_idle`), and choosing a controller, reading and
steering a motion lead back there (`setController_of_idle`, `showStates_of_idle`, `run_of_idle`).
None of them is refused. -/

namespace ArmControl

namespace Engine

variable {e e' : Engine}

/-- How a wait for a state ends that began without a motion. -/
inductive Quiet (accepted : List State) : Except SessionError (Option State) → Prop
  | state {s} : accepted = [s] → Quiet accepted (.ok (some s))
  | ended : accepted = [] → Quiet accepted (.ok none)
  | broken {err} : accepted = [] → err.isFatal → Quiet accepted (.error err)

theorem poll_of_idle {result : Except SessionError (Option State)} (hidle : e.motion = {})
    (h : e.poll = (result, e')) :
    ∃ j, Passage e j e' ∧ j.Silent ∧ e'.motion = {} ∧ Quiet (j.accepted e.lastId) result := by
  obtain ⟨j, outcome, hpassage, hsilent, hcredits, hpolled⟩ := poll_cases h
  refine ⟨j, hpassage, hsilent, ?_⟩
  rw [hidle] at hcredits hpolled
  have houtcome : outcome = none := hcredits.resolve_right (by simp)
  subst houtcome
  generalize e'.motion = m' at hpolled
  cases hpolled with
  | ended hnone => exact ⟨rfl, .ended hnone⟩
  | broken hnone hfatal => exact ⟨rfl, .broken hnone hfatal⟩
  | state haccepted hobserve =>
      rw [Motion.observe_of_notStarted rfl] at hobserve
      exact ⟨(Prod.mk.inj hobserve).2.symm, .state haccepted⟩
  | mismatch _ hobserve =>
      rw [Motion.observe_of_notStarted rfl] at hobserve
      cases (Prod.mk.inj hobserve).1
  | rejected _ hhandle =>
      rw [Motion.handle_of_inert rfl rfl] at hhandle
      cases (Prod.mk.inj hhandle).1

theorem Quiet.accepted_of_error {accepted : List State} {err : SessionError}
    (h : Quiet accepted (.error err)) : accepted = [] := by
  cases h with
  | broken hnone _ => exact hnone

theorem Quiet.isRefusal {accepted : List State} {err : SessionError}
    (h : Quiet accepted (.error err)) : err.isRefusal = false := by
  cases h with
  | broken _ hfatal => exact SessionError.isRefusal_of_isFatal hfatal

/-- Without a motion, a cycle that has nothing to send is a wait for a state. -/
theorem update_of_idle (hidle : e.motion = {}) : e.update none none = e.poll := by
  simp [update, hidle]

theorem setController_of_idle (mode : ControllerMode) (hidle : e.motion = {}) :
    (e.setController mode).2.motion = {} := by
  have hawait (since : Option UInt64) {e : Engine} (hidle : e.motion = {}) :
      (e.awaitController mode since).2.motion = {} := by
    fun_induction awaitController mode since e with
    | case1 e hconfirms => exact hidle
    | case2 e hconfirms e₁ hlook => exact (look_eq hlook).1.trans hidle
    | case3 e hconfirms e₁ hlook s e₂ hpoll ih =>
        obtain ⟨-, -, -, hidle₂, -⟩ := poll_of_idle ((look_eq hlook).1.trans hidle) hpoll
        exact ih hidle₂
    | case4 e hconfirms e₁ hlook e₂ hpoll =>
        obtain ⟨-, -, -, hidle₂, -⟩ := poll_of_idle ((look_eq hlook).1.trans hidle) hpoll
        exact hidle₂
    | case5 e hconfirms e₁ hlook err e₂ hpoll =>
        obtain ⟨-, -, -, hidle₂, -⟩ := poll_of_idle ((look_eq hlook).1.trans hidle) hpoll
        exact hidle₂
  have hexecuted := execute_motion_of_inert (e := e) (by rw [hidle]) (by rw [hidle])
    (.setController mode)
  unfold setController
  simp only
  split <;> (rename_i heq; rw [heq, hidle] at hexecuted)
  · exact hexecuted
  · exact hawait _ hexecuted
  · exact hexecuted

end Engine

open Engine

namespace Robot

variable {σ : Type} {credit : σ → Nat} {e e' : Engine} {m m' : σ}

/-- One state of a reading: it is the only one that is accepted until the callback has answered. -/
theorem shows_of_idle {κ : Type} {cb : ArmControl.Callback credit State Bool} {log : σ → List κ}
    {f : State → List κ} {s : State} {answer : Bool} {e₁ : Engine} (hlogs : cb.Logs log f)
    (hidle : e.motion = {}) (hupdate : e.update none none = (.ok (some s), e₁))
    (hcall : cb.call s e₁ m = (answer, m', e')) :
    ∃ j, Passage e j e' ∧ e'.motion = {} ∧ j.accepted e.lastId = [s] ∧ log m' = log m ++ f s := by
  rw [update_of_idle hidle] at hupdate
  obtain ⟨j₁, hpassage₁, -, hidle₁, hquiet⟩ := poll_of_idle hidle hupdate
  obtain ⟨j₂, hpassage₂, -, hevents, hmotion⟩ := Callback.call_passage hcall
  have hlog := hlogs s e₁ m
  rw [hcall] at hlog
  refine ⟨_, hpassage₁.trans hpassage₂, hmotion.trans hidle₁, ?_, hlog⟩
  cases hquiet with
  | state haccepted =>
      rw [Journal.accepted_append, haccepted, Journal.accepted_of_events_nil hevents,
        List.append_nil]

/-- Reading hands every state that is accepted to the callback, in order. -/
theorem showStates_of_idle {κ : Type} {cb : ArmControl.Callback credit State Bool}
    {log : σ → List κ} {f : State → List κ} {result : Except SessionError Unit}
    (hlogs : cb.Logs log f) (hidle : e.motion = {}) (h : showStates cb e m = (result, m', e')) :
    ∃ j, Passage e j e' ∧ e'.motion = {} ∧ log m' = log m ++ (j.accepted e.lastId).flatMap f ∧
      ∀ err, result = .error err → err.isRefusal = false := by
  fun_induction showStates cb e m with
  | case1 e m err e₁ hupdate =>
      simp only [Prod.mk.injEq] at h
      obtain ⟨rfl, rfl, rfl⟩ := h
      rw [update_of_idle hidle] at hupdate
      obtain ⟨j, hpassage, -, hidle₁, hquiet⟩ := poll_of_idle hidle hupdate
      refine ⟨j, hpassage, hidle₁, ?_, fun err herr => ?_⟩
      · rw [hquiet.accepted_of_error]
        simp
      · cases herr
        exact hquiet.isRefusal
  | case2 e m e₁ hupdate =>
      simp only [Prod.mk.injEq] at h
      obtain ⟨rfl, rfl, rfl⟩ := h
      rw [update_of_idle hidle] at hupdate
      obtain ⟨j, hpassage, -, hidle₁, hquiet⟩ := poll_of_idle hidle hupdate
      refine ⟨j, hpassage, hidle₁, ?_, by simp⟩
      cases hquiet with
      | ended hnone => simp [hnone]
  | case3 e m s e₁ hupdate m₁ e₂ hcall ih =>
      obtain ⟨j₁, hpassage₁, hidle₂, hshown⟩ := shows_of_idle hlogs hidle hupdate hcall
      obtain ⟨j₂, hpassage₂, hidle', hlog, hresult⟩ := ih hidle₂ h
      refine ⟨_, hpassage₁.trans hpassage₂, hidle', ?_, hresult⟩
      rw [hlog, Journal.accepted_append, ← hpassage₁.lastId, hshown.1, hshown.2, List.append_assoc]
      rfl
  | case4 e m s e₁ hupdate m₁ e₂ hcall =>
      simp only [Prod.mk.injEq] at h
      obtain ⟨rfl, rfl, rfl⟩ := h
      obtain ⟨j, hpassage, hidle', hshown⟩ := shows_of_idle hlogs hidle hupdate hcall
      refine ⟨j, hpassage, hidle', ?_, by simp⟩
      rw [hshown.1, hshown.2]
      simp

end Robot

namespace ControlLoop

variable {σ : Type} {credit : σ → Nat} {steering : Steering credit} {controller : ControllerMode}
  {motion : MotionMode} {e e' : Engine} {m m' : σ} {result : Except SessionError Unit}

theorem run_of_idle (htame : steering.Tame) (hidle : e.motion = {})
    (h : run controller motion steering e m = (result, m', e')) :
    e'.motion = {} ∧ ∀ err, result = .error err → err.isRefusal = false := by
  rcases e.raisePriority_cases with hraised | ⟨cause, hraised⟩
  · have hplain := run_erase steering.recorded_erases controller motion e (m, [])
    rw [h, run_eq controller motion steering.recorded e (m, []) hraised] at hplain
    rcases hcourse : course controller motion steering.recorded e (m, []) with ⟨ended, p', e₁⟩
    obtain ⟨_, _, _, hcoursed⟩ := course_cases hcourse (by rw [hidle]) (by rw [hidle])
    rw [hcourse] at hplain
    generalize hm : e₁.motion = m₁ at hcoursed
    cases hcoursed with
    | refused _ _ _ hrefusal =>
        simp only [erase, Prod.mk.injEq] at hplain
        obtain ⟨rfl, rfl, rfl⟩ := hplain
        exact ⟨by rw [hm, hidle], fun err herr => by cases herr; exact hrefusal⟩
    | failed _ hrefusal =>
        simp only [erase, Prod.mk.injEq] at hplain
        obtain ⟨rfl, rfl, rfl⟩ := hplain
        refine ⟨rfl, fun err herr => ?_⟩
        cases herr
        exact hrefusal (by rw [hidle]) htame
    | completed =>
        simp only [erase, Prod.mk.injEq] at hplain
        obtain ⟨rfl, rfl, rfl⟩ := hplain
        exact ⟨hm, by simp⟩
  · simp only [run, hraised, Prod.mk.injEq] at h
    obtain ⟨rfl, rfl, rfl⟩ := h
    exact ⟨hidle, fun err herr => by cases herr; rfl⟩

end ControlLoop
end ArmControl
