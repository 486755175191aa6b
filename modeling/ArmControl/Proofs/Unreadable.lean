import ArmControl.Proofs.Path

/-! # States that cannot be read

A state datagram that cannot be read ends the wait that has taken it, and changes nothing else
(`received_of_unreadable`).  Its error is the result of the call (`perform_reports`), except where
nobody asks for a result: while the engine waits to hear that a motion is cancelled. -/

namespace ArmControl

/-- What is wrong with the state datagram that is taken. -/
def Moment.unreadable? (m : Moment) : Option WireError :=
  match m.event? with
  | some (.state datagram) =>
    match State.decode datagram with
    | .error err => some err
    | .ok _ => none
  | _ => none

namespace Engine

variable {α β : Type} {e e' : Engine} {a b : List Moment} {err : WireError}

/-- The engine has taken the datagram off the link, and that is all. -/
theorem receive_of_unreadable {awaited : Option (FrameKind × UInt32)}
    (h : Moment.unreadable? ⟨e, awaited⟩ = some err) :
    ∃ datagram link, e.link.receive = (.ok (.state datagram), link) ∧
      (e.withLink link).intake (.state datagram) = (.error (.wire err), e.withLink link) := by
  unfold Moment.unreadable? Moment.event? at h
  split at h
  · rename_i datagram hevent
    split at h
    · rename_i hdecode
      obtain rfl := Option.some.inj h
      simp only at hevent
      split at hevent
      · cases hevent
      · rename_i hopen
        obtain ⟨rest, hpending⟩ := List.head?_eq_some_iff.1 hevent
        refine ⟨datagram, _, by simp only [Link.receive, hopen, hpending]; rfl, ?_⟩
        simp only [intake, hdecode]
    · cases h
  · cases h

theorem received_of_unreadable {m : Moment} (h : m.unreadable? = some err) :
    ∃ link, m.engine.received = m.engine.withLink link := by
  obtain ⟨datagram, link, hr, ha⟩ := receive_of_unreadable h
  exact ⟨link, by simp only [received, hr, ha]⟩

/-! ### The result of a wait -/

/-- Whatever datagram could not be read, the result tells. -/
def Reports (ms : List Moment) (result : Except SessionError α) : Prop :=
  ∀ m ∈ ms, ∀ err, m.unreadable? = some err → result = .error (.wire err)

namespace Reports

theorem nil (result : Except SessionError α) : Reports [] result := by
  intro m hm
  cases hm

/-- After a success all datagrams that were taken could be read. -/
theorem append {x : α} {result : Except SessionError β} (ha : Reports a (.ok x))
    (hb : Reports b result) : Reports (a ++ b) result := by
  intro m hm err herr
  rcases List.mem_append.1 hm with hm | hm
  · cases ha m hm err herr
  · exact hb m hm err herr

theorem of_ok {x : α} (h : Reports a (.ok x)) (result : Except SessionError β) :
    Reports a result := by
  have hall := h.append (nil result)
  rwa [List.append_nil] at hall

/-- The error is handed on. -/
theorem of_error {cause : SessionError} (h : Reports a (.error cause : Except SessionError α)) :
    Reports a (.error cause : Except SessionError β) := by
  intro m hm err herr
  rw [Except.error.inj (h m hm err herr)]

theorem map {result : Except SessionError α} (h : Reports a result) (f : α → β) :
    Reports a (result.map f) := by
  intro m hm err herr
  rw [h m hm err herr]
  rfl

end Reports

theorem wait_reports (awaited : Option (FrameKind × UInt32)) (judge : Judge α)
    (ended : Except SessionError α) (e : Engine) :
    Reports (Moments.wait awaited judge e) (e.wait judge ended).1 := by
  induction hn : e.link.pending.length using Nat.strongRecOn generalizing e with
  | ind n ih =>
      rw [Moments.wait_eq]
      intro m hm err herr
      rcases List.mem_cons.1 hm with rfl | hm
      · obtain ⟨datagram, link, hr, ha⟩ := receive_of_unreadable herr
        rw [wait_eq]
        simp only [hr, ha]
      · cases hpasses : e.passes judge with
        | some e₁ =>
            rw [hpasses] at hm
            rw [wait_of_passes hpasses]
            exact ih _ (hn ▸ passes_length_lt hpasses) e₁ rfl m hm err herr
        | none =>
            rw [hpasses] at hm
            cases hm

theorem poll_reports (e : Engine) : Reports (Moments.poll e) e.poll.1 := wait_reports none _ _ e

/-! ### The result of a call -/

theorem execute_reports (request : Request) (e : Engine) :
    Reports (Moments.execute request e) (e.execute request).1 := by
  unfold Moments.execute Engine.execute awaitReply
  rcases hs : e.session.send request with ⟨err | id, session⟩ <;> simp only
  · exact .nil _
  · have hwait := wait_reports (some (request.kind, id)) (judgeReply request.kind id)
      (.error .closed) { e with session }
    split <;> (rename_i hw; rw [hw] at hwait)
    · exact hwait.of_error
    · exact hwait.of_ok _

theorem update_reports (motion : Option MotionCommand) (torques : Option Torques) (e : Engine) :
    Reports (Moments.update motion torques e) (e.update motion torques).1 := by
  cases hdeferred : e.motion.deferred with
  | some err =>
      simp only [Moments.update, Engine.update, hdeferred]
      exact .nil _
  | none =>
      simp only [Moments.update, Engine.update, hdeferred]
      split
      · rcases hs : e.sendCommand motion torques with ⟨err | _, e₁⟩ <;> simp only
        · exact .nil _
        · exact poll_reports e₁
      · exact poll_reports e

theorem awaitGenerator_reports (e : Engine) :
    Reports (Moments.awaitGenerator e) e.awaitGenerator.1 := by
  fun_induction Engine.awaitGenerator e with
  | case1 e hstatus =>
      rw [Moments.awaitGenerator_eq]
      simpa [hstatus] using Reports.nil _
  | case2 e hstatus e₁ hlook =>
      rw [Moments.awaitGenerator_eq]
      simp only [hlook, hstatus, true_and, Bool.true_eq_false, if_false]
      exact .nil _
  | case3 e hstatus e₁ hlook s e₂ hpoll ih =>
      have hreports := poll_reports e₁
      rw [hpoll] at hreports
      rw [Moments.awaitGenerator_eq]
      simp only [hlook, hstatus, true_and, if_true, hpoll]
      exact hreports.append ih
  | case4 e hstatus e₁ hlook e₂ hpoll =>
      have hreports := poll_reports e₁
      rw [hpoll] at hreports
      rw [Moments.awaitGenerator_eq]
      simp only [hlook, hstatus, true_and, if_true, hpoll, List.append_nil]
      exact hreports.of_ok _
  | case5 e hstatus e₁ hlook err e₂ hpoll =>
      have hreports := poll_reports e₁
      rw [hpoll] at hreports
      rw [Moments.awaitGenerator_eq]
      simp only [hlook, hstatus, true_and, if_true, hpoll, List.append_nil]
      exact hreports.of_error
  | case6 e hrunning hstarting =>
      have hother : ¬ (e.motion.status = .starting ∧ e.look.1 = false) := fun h => hstarting h.1
      rw [Moments.awaitGenerator_eq, if_neg hother]
      exact .nil _

theorem confirmGenerator_reports (since : Option UInt64) (e : Engine) :
    Reports (Moments.confirmGenerator since e) (e.confirmGenerator since).1 := by
  cases hs : e.lastState with
  | none =>
      simp only [Moments.confirmGenerator, Engine.confirmGenerator, hs]
      exact awaitGenerator_reports e
  | some s =>
      simp only [Moments.confirmGenerator, Engine.confirmGenerator, hs]
      split
      · rcases e.motion.observe s.motionMode with ⟨err | _, m⟩
        · exact .nil _
        · exact awaitGenerator_reports _
      · exact awaitGenerator_reports e

theorem startGenerator_reports (type : MotionType) (e : Engine) :
    Reports (Moments.startGenerator type e) (e.startGenerator type).1 := by
  unfold Moments.startGenerator Engine.startGenerator
  split
  · exact .nil _
  · have hreports := execute_reports (.startMotion type) e
    rcases hexecute : e.execute (.startMotion type) with ⟨err | ⟨id, reply⟩, e₁⟩ <;>
      rw [hexecute] at hreports <;> simp only
    · simpa using hreports.of_error
    · by_cases hreply : reply = .startMotion .success
      · subst hreply
        exact hreports.append (confirmGenerator_reports _ _)
      · simpa [hreply] using hreports.of_ok _

theorem stopGenerator_reports (e : Engine) :
    Reports (Moments.stopGenerator e) e.stopGenerator.1 := by
  unfold Moments.stopGenerator Engine.stopGenerator
  split
  · exact .nil _
  · have hreports := execute_reports .stopMotion
      (e.withMotion (e.motion.exchange .running .stopping))
    rcases hexecute : Engine.execute .stopMotion
      (e.withMotion (e.motion.exchange .running .stopping)) with ⟨err | ⟨id, reply⟩, e₁⟩ <;>
      rw [hexecute] at hreports <;> simp only [hexecute]
    · exact hreports.of_error
    · exact hreports.of_ok _

theorem awaitController_reports (mode : ControllerMode) (since : Option UInt64) (e : Engine) :
    Reports (Moments.awaitController mode since e) (e.awaitController mode since).1 := by
  fun_induction Engine.awaitController mode since e with
  | case1 e hconfirms =>
      rw [Moments.awaitController_eq]
      simp only [hconfirms, Bool.true_eq_false, false_and, if_false]
      exact .nil _
  | case2 e hconfirms e₁ hlook =>
      rw [Moments.awaitController_eq]
      simp only [hlook, Bool.true_eq_false, and_false, if_false]
      exact .nil _
  | case3 e hconfirms e₁ hlook s e₂ hpoll ih =>
      have hreports := poll_reports e₁
      rw [hpoll] at hreports
      rw [Moments.awaitController_eq]
      simp only [hlook, hconfirms, and_self, if_true, hpoll]
      exact hreports.append ih
  | case4 e hconfirms e₁ hlook e₂ hpoll =>
      have hreports := poll_reports e₁
      rw [hpoll] at hreports
      rw [Moments.awaitController_eq]
      simp only [hlook, hconfirms, and_self, if_true, hpoll, List.append_nil]
      exact hreports.of_ok _
  | case5 e hconfirms e₁ hlook err e₂ hpoll =>
      have hreports := poll_reports e₁
      rw [hpoll] at hreports
      rw [Moments.awaitController_eq]
      simp only [hlook, hconfirms, and_self, if_true, hpoll, List.append_nil]
      exact hreports.of_error

theorem setController_reports (mode : ControllerMode) (e : Engine) :
    Reports (Moments.setController mode e) (e.setController mode).1 := by
  have hreports := execute_reports (.setController mode) e
  unfold Moments.setController Engine.setController
  rcases hexecute : e.execute (.setController mode) with ⟨err | ⟨id, reply⟩, e₁⟩ <;>
    rw [hexecute] at hreports <;> simp only
  · simpa using hreports.of_error
  · by_cases hreply : reply = .setController .success
    · subst hreply
      exact hreports.append (awaitController_reports _ _ _)
    · simpa [hreply] using hreports.of_ok _

variable {controller : ControllerMode} {motion : MotionMode} {path goal : Deviation}

/-- The result of a launch that was accepted is the one of the confirmation. -/
theorem launch_reports (controller : ControllerMode) (motion : MotionMode)
    (path goal : Deviation) (e : Engine) :
    Reports (Moments.launch controller motion path goal e)
      ((e.launch controller motion path goal).1.bind Prod.snd) := by
  unfold Moments.launch Engine.launch
  split
  · exact .nil _
  · have hreports := execute_reports (.move ⟨controller, motion, path, goal⟩)
      (e.withMotion { e.motion with outcome := none })
    rcases hexecute : Engine.execute (.move ⟨controller, motion, path, goal⟩)
      (e.withMotion { e.motion with outcome := none }) with ⟨err | ⟨id, reply⟩, e₁⟩ <;>
      rw [hexecute] at hreports <;> simp only [hexecute]
    · simpa [Except.bind] using hreports.of_error
    · by_cases hreply : reply = .move .started
      · subst hreply
        have hconfirm := confirmGenerator_reports e.lastId
          (e₁.withMotion ({ e₁.motion with current := some id }.begin motion))
        rcases hconfirmed : Engine.confirmGenerator e.lastId
          (e₁.withMotion ({ e₁.motion with current := some id }.begin motion)) with
          ⟨err | _, e₂⟩ <;> rw [hconfirmed] at hconfirm <;> simp only [hconfirmed] <;>
          exact hreports.append hconfirm
      · simpa [hreply] using hreports.of_ok _

theorem drain_reports (finishing : MotionCommand) (torques : Option Torques) (e : Engine) :
    Reports (Moments.drain finishing torques e) (e.drain finishing torques).1 := by
  fun_induction Engine.drain finishing torques e with
  | case1 e hstopping s e₁ hupdate ih =>
      have hreports := update_reports (some finishing) torques e
      rw [hupdate] at hreports
      rw [Moments.drain_eq]
      simp only [hstopping, if_true, hupdate]
      exact hreports.append ih
  | case2 e hstopping e₁ hupdate =>
      have hreports := update_reports (some finishing) torques e
      rw [hupdate] at hreports
      rw [Moments.drain_eq]
      simp only [hstopping, if_true, hupdate, List.append_nil]
      exact hreports.of_ok _
  | case3 e hstopping err e₁ hupdate =>
      have hreports := update_reports (some finishing) torques e
      rw [hupdate] at hreports
      rw [Moments.drain_eq]
      simp only [hstopping, if_true, hupdate, List.append_nil]
      exact hreports.of_error
  | case4 e hstopping =>
      rw [Moments.drain_eq, if_neg hstopping]
      exact .nil _

theorem awaitOutcome_reports (id : UInt32) (e : Engine) :
    Reports (Moments.awaitOutcome id e) (e.awaitOutcome id).1 := by
  unfold Moments.awaitOutcome Engine.awaitOutcome
  rcases e.motion.settle id with ⟨_ | result, m⟩
  · exact wait_reports none _ _ _
  · exact .nil _

theorem finishMotion_reports (id : UInt32) (motion : Option MotionCommand)
    (torques : Option Torques) (e : Engine) :
    Reports (Moments.finishMotion id motion torques e) (e.finishMotion id motion torques).1 := by
  unfold Moments.finishMotion Engine.finishMotion
  split
  · exact .nil _
  · simp only
    generalize motion.getD _ = last
    have hreports := drain_reports last.finish torques
      (e.withMotion (e.motion.exchange .running .stopping))
    rcases hdrain : Engine.drain last.finish torques
      (e.withMotion (e.motion.exchange .running .stopping)) with ⟨err | _, e₁⟩ <;>
      rw [hdrain] at hreports <;> simp only
    · simpa using hreports.of_error
    · exact hreports.append (awaitOutcome_reports id e₁)

/-- The moments of a call at which nobody asks for a result: the engine waits to hear that a motion
is cancelled. -/
def Moments.cancelling : Call → Engine → List Moment
  | .cancelMotion, e => cancelMotion e
  | .startMotion controller motion path goal, e =>
    match e.launch controller motion path goal with
    | (.ok (_, .error _), e') => cancelMotion e'
    | _ => []
  | _, _ => []

theorem startMotion_reports (controller : ControllerMode) (motion : MotionMode)
    (path goal : Deviation) (e : Engine) :
    Reports (Moments.launch controller motion path goal e)
      (e.startMotion controller motion path goal).1 := by
  have hreports := launch_reports controller motion path goal e
  rw [startMotion_eq]
  rcases hlaunch : e.launch controller motion path goal with ⟨err | ⟨id, err | _⟩, e₁⟩ <;>
    rw [hlaunch] at hreports <;> simp only
  · exact hreports.of_error
  · exact hreports.of_error
  · exact hreports.of_ok _

/-- A call tells of every datagram that could not be read, unless it was taken while the engine
waited to hear that a motion is cancelled. -/
theorem perform_reports (call : Call) (e : Engine) :
    ∃ ms, Moments.perform call e = ms ++ Moments.cancelling call e ∧
      Reports ms (e.perform call).1 := by
  cases call with
  | update motion torques =>
      refine ⟨_, (List.append_nil _).symm, ?_⟩
      exact (update_reports motion torques e).map _
  | startGenerator type => exact ⟨_, (List.append_nil _).symm, startGenerator_reports type e⟩
  | stopGenerator => exact ⟨_, (List.append_nil _).symm, stopGenerator_reports e⟩
  | setController mode => exact ⟨_, (List.append_nil _).symm, setController_reports mode e⟩
  | startMotion controller motion path goal =>
      refine ⟨_, rfl, ?_⟩
      exact (startMotion_reports controller motion path goal e).map _
  | finishMotion id motion torques =>
      exact ⟨_, (List.append_nil _).symm, finishMotion_reports id motion torques e⟩
  | cancelMotion => exact ⟨[], rfl, .nil _⟩

end Engine
end ArmControl
