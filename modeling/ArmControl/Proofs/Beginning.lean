import ArmControl.Proofs.Accounts
import ArmControl.Proofs.Agreement
import ArmControl.Proofs.Exclusion
import ArmControl.Proofs.Withdrawal

/-! # All or nothing

A start succeeds only through two messages: the reply by which the controller accepts the request,
and a state that reports the mode asked for and is newer than all that were taken before
(`execute_confirmed`).  Whatever else arrives in between, before or after them, either leaves the
start pending or lets it fail.

A start that fails leaves nothing behind.  For a motion that means more than for a generator: once
the controller has accepted it, the motion is cancelled, and only then.  `start_all_or_nothing`
states this for every engine that can be reached in which no generator is active. -/

namespace ArmControl

/-! ### The requests that were sent -/

/-- A request that was sent was tried. -/
theorem Journal.requests_of_attempts_nil {j : Journal} (h : j.attempts = []) : j.requests = [] := by
  rw [requests, List.filterMap_eq_nil_iff]
  intro entry hentry
  have hnone := List.filterMap_eq_nil_iff.1 h entry hentry
  cases entry <;> first | rfl | cases hnone

theorem Session.requests_send {request : Request} {s s' : Session} {id : UInt32} {j : Journal}
    (h : s.send request = (.ok id, s')) (hjournal : s'.link.journal = s.link.journal ++ j) :
    j.requests = [request.encode s.nextId] := by
  unfold send Link.sendRequest at h
  simp only at h
  split at h
  · cases h
  · rename_i hsend
    split at hsend
    · cases hsend
    · obtain ⟨-, rfl⟩ := Prod.mk.inj hsend
      obtain ⟨-, rfl⟩ := Prod.mk.inj h
      have heq : s.link.journal ++ j = s.link.journal ++ [.request (request.encode s.nextId),
          .queued (s.link.farEnd.onRequest (request.encode s.nextId)).1] := by
        rw [← hjournal]
        exact List.append_assoc _ [_] [_]
      rw [List.append_cancel_left heq]
      rfl

namespace Engine

variable {e e₁ e' : Engine} {before i j : Journal} {request : Request} {reply : Reply}
  {id : UInt32} {m : Motion} {mode : MotionMode}

/-- A request that was answered has been sent, and nothing else. -/
theorem execute_requests (h : e.execute request = (.ok (id, reply), e'))
    (hpassage : Passage e j e') : j.requests = [request.encode e.session.nextId] := by
  obtain ⟨i, hsent, -⟩ := passage_send request e
  unfold execute at h
  split at h
  · cases h
  · rename_i id₁ session hsend
    rw [hsend] at hsent
    obtain ⟨k, hwait, hsilent⟩ := wait_passage (judgeReply request.kind id₁) (.error .closed)
      { e with session }
    split at h
    · cases h
    · rename_i hanswer
      obtain ⟨-, rfl⟩ := Prod.mk.inj h
      rw [awaitReply] at hanswer
      rw [hanswer] at hwait
      obtain rfl := List.append_cancel_left
        ((hsent.trans hwait).journal.symm.trans hpassage.journal)
      rw [Journal.requests_append, Journal.requests_of_attempts_nil hsilent.1, List.append_nil]
      exact Session.requests_send hsend hsent.journal

/-! ### A start that succeeds -/

/-- A generator of this mode runs, and the last state reports it and is newer than all that were
taken in `before`. -/
structure Runs (mode : MotionMode) (before : Journal) (e : Engine) : Prop where
  running : e.motion.status = .running
  expected : e.motion.expected = mode
  reported : ∃ s, e.lastState = some s ∧ s.motionMode = mode ∧
    ∀ t ∈ before.states, t.messageId < s.messageId

/-- The request was sent, and this was the first reply to it. -/
def Answered (request : Request) (id : UInt32) (reply : Reply) (j : Journal) : Prop :=
  j.requests = [request.encode id] ∧ (j.repliesTo request.kind id).head? = some reply

/-- A request that was answered is followed by a confirmation: some state that was accepted in the
meantime has reported the mode. -/
theorem execute_confirmed (hexecute : e.execute request = (.ok (id, reply), e₁))
    (hstarting : m.status = .starting)
    (hconfirm : (e₁.withMotion m).confirmGenerator e.lastId = (.ok (), e')) :
    ∃ j, Passage e j e' ∧ id = e.session.nextId ∧ Answered request id reply j ∧
      j.accepted e.lastId ≠ [] ∧ ∃ outcome, e'.motion = { m with status := .running, outcome } := by
  obtain ⟨i, hpassage, -, -, hexecuted⟩ := execute_cases hexecute
  obtain ⟨k, hpassage', hsilent, hawaited⟩ := confirmGenerator_cases hconfirm hstarting
  have hrequests := execute_requests hexecute hpassage
  generalize hm : e'.motion = m' at hawaited
  cases hexecuted with
  | answered honly _ =>
      cases hawaited with
      | confirmed _ hrunning =>
          obtain ⟨s, hs, -⟩ := hrunning.resolve_left (by simp [withMotion, hstarting])
          refine ⟨i ++ k, (hpassage.withMotion m).trans hpassage', rfl, ⟨?_, ?_⟩, ?_, _, rfl⟩
          · rw [Journal.requests_append, Journal.requests_of_attempts_nil hsilent.1, hrequests]
            rfl
          · rw [Journal.repliesTo_append, honly]
            rfl
          · exact List.ne_nil_of_mem (hpassage.mem_accepted_trans hs)

/-- A state that was accepted after `before` is newer than all that were taken in it. -/
theorem runs_of_accepted {e₀ : Engine} (h₀ : e₀.lastState = none) (hbefore : Passage e₀ before e)
    (hpassage : Passage e j e') (haccepted : j.accepted e.lastId ≠ [])
    (hagrees : Agrees (fun _ => False) e') (hrunning : e'.motion.status = .running)
    (hexpected : e'.motion.expected = mode) : Runs mode before e' where
  running := hrunning
  expected := hexpected
  reported := by
    obtain ⟨s, hlast, hmode⟩ := hagrees hrunning
    obtain ⟨t, ht, hmem⟩ := hpassage.lastState_mem haccepted
    obtain rfl := Option.some.inj (ht.symm.trans hlast)
    refine ⟨t, hlast, by rw [hmode.resolve_right id, hexpected], ?_⟩
    have hnew := newerThan_of_mem_records hmem
    have hnone : e₀.lastId = none := by rw [Engine.lastId, h₀]; rfl
    rw [hbefore.lastId, hnone] at hnew
    exact (newerThan_latest_iff.1 hnew).2

theorem startGenerator_ok {type : MotionType} (h : e.startGenerator type = (.ok (), e')) :
    ∃ j, Passage e j e' ∧
      Answered (.startMotion type) e.session.nextId (.startMotion .success) j ∧
      j.accepted e.lastId ≠ [] ∧ e'.motion.status = .running ∧ e'.motion.expected = type.mode := by
  unfold startGenerator at h
  split at h
  · cases h
  · simp only at h
    split at h
    · cases h
    · rename_i id e₁ hexecute
      obtain ⟨j, hpassage, rfl, hanswered, haccepted, outcome, hmotion⟩ :=
        execute_confirmed hexecute rfl h
      exact ⟨j, hpassage, hanswered, haccepted, by rw [hmotion], by rw [hmotion]; rfl⟩
    · cases h

variable {controller : ControllerMode} {motion : MotionMode} {path goal : Deviation}

theorem startMotion_ok (h : e.startMotion controller motion path goal = (.ok id, e')) :
    ∃ j, Passage e j e' ∧ id = e.session.nextId ∧
      Answered (.move ⟨controller, motion, path, goal⟩) id (.move .started) j ∧
      j.accepted e.lastId ≠ [] ∧ e'.motion.status = .running ∧ e'.motion.expected = motion ∧
      e'.motion.current = some id ∧ e'.controllerMode = some controller := by
  unfold startMotion at h
  split at h
  · cases h
  · simp only at h
    split at h
    · cases h
    · rename_i id₁ e₁ hexecute
      split at h
      · cases h
      · rename_i e₂ hconfirm
        obtain ⟨hid, rfl⟩ := Prod.mk.inj h
        obtain rfl := Except.ok.inj hid
        obtain ⟨j, hpassage, hnext, hanswered, haccepted, outcome, hmotion⟩ :=
          execute_confirmed hexecute rfl hconfirm
        refine ⟨j, hpassage.of_withMotion.setController _, hnext, hanswered, haccepted, ?_⟩
        rw [hmotion]
        exact ⟨rfl, rfl, rfl, rfl⟩
    · cases h

/-! ### A start that fails -/

/-- A motion whose start fails is forgotten, and it is cancelled just if the controller had accepted
it. -/
theorem startMotion_error {err : SessionError} (hstatus : e.motion.status = .notStarted)
    (hcurrent : e.motion.current = none)
    (h : e.startMotion controller motion path goal = (.error err, e')) :
    ∃ j, Passage e j e' ∧
      (e'.motion = { e.motion with outcome := none } ∨ e'.motion = {}) ∧
      (.stopMove ∈ j.asked ↔ .move .started ∈ j.repliesTo .move e.session.nextId) := by
  rw [startMotion_eq] at h
  rcases hlaunch : e.launch controller motion path goal with ⟨launched, e₁⟩
  obtain ⟨i, hpassage, hattempts, -, hlaunched⟩ := launch_cases hlaunch hstatus hcurrent
  have hasked := Journal.asked_of_attempts hattempts
  rw [hlaunch] at h
  generalize hm : e₁.motion = m₁ at hlaunched
  cases hlaunched with
  | refused hnever =>
      obtain ⟨-, rfl⟩ := Prod.mk.inj h
      refine ⟨i, hpassage, .inl hm, iff_of_false ?_ hnever⟩
      rw [hasked]
      simp
  | @accepted confirmed _ hstarted _ =>
      cases confirmed with
      | ok _ => cases h
      | error _ =>
          obtain ⟨-, rfl⟩ := Prod.mk.inj h
          obtain ⟨k, hcancel, hattempts', -, hmotion⟩ := e₁.cancelMotion_cases
          refine ⟨i ++ k, hpassage.trans hcancel, .inr hmotion, iff_of_true ?_ ?_⟩
          · rw [Journal.asked_append, Journal.asked_of_attempts hattempts']
            exact List.mem_append_right _ (List.mem_singleton_self _)
          · exact Journal.mem_repliesTo_left hstarted k

/-! ### A session -/

/-- Whatever arrives, the start of a generator or of a motion either brings about all that was asked
for, or it fails and leaves neither behind. -/
theorem start_all_or_nothing (session : Session) (settings : Settings) (clock : Clock)
    (turns : List Turn) :
    let e₀ := Engine.start session settings clock
    let e := e₀.after turns
    let id := e.session.nextId
    e.motion.status = .notStarted →
    ∃ before : Journal, e.link.journal = e₀.link.journal ++ before ∧
    (∀ (type : MotionType) result e', e.startGenerator type = (result, e') →
      ∃ j : Journal, e'.link.journal = e.link.journal ++ j ∧
        (result = .ok () →
          Runs type.mode before e' ∧ Answered (.startMotion type) id (.startMotion .success) j) ∧
        ∀ err, result = .error err →
          e'.motion.status = .notStarted ∧ e'.motion.expected = .idle) ∧
    (e.motion.current = none → ∀ controller motion path goal result e',
      e.startMotion controller motion path goal = (result, e') →
      ∃ j : Journal, e'.link.journal = e.link.journal ++ j ∧
        (∀ id', result = .ok id' → id' = id ∧ Runs motion before e' ∧
          Answered (.move ⟨controller, motion, path, goal⟩) id (.move .started) j ∧
          e'.motion.current = some id ∧ e'.controllerMode = some controller) ∧
        ∀ err, result = .error err →
          e'.motion.status = .notStarted ∧ e'.motion.expected = .idle ∧
          e'.motion.current = none ∧ e'.motion.outcome = none ∧
          (.stopMove ∈ j.asked ↔ .move .started ∈ j.repliesTo .move id)) := by
  intro e₀ e id hstatus
  obtain ⟨before, hbefore⟩ := after_passage turns e₀
  have horderly : e.Orderly := (orderly_start session settings clock).after turns
  refine ⟨before, hbefore.journal, ?_, ?_⟩
  · intro type result e' h
    have hstart : (Call.startGenerator type).Starts := trivial
    have hagrees := agrees_start hstatus hstart fun _ => False
    simp only [perform, h] at hagrees
    rcases result with err | ⟨⟩
    · obtain ⟨j, hpassage, -, hstarted⟩ := startGenerator_cases h hstatus
      refine ⟨j, hpassage.journal, by simp, fun _ _ => ?_⟩
      generalize hs : e'.motion.status = status at hstarted
      cases hstarted with
      | failed => exact ⟨rfl, (horderly.startGenerator h).1.idle_of_notStarted hs⟩
    · obtain ⟨j, hpassage, hanswered, haccepted, hrunning, hexpected⟩ := startGenerator_ok h
      refine ⟨j, hpassage.journal, fun _ => ⟨?_, hanswered⟩, by simp⟩
      exact runs_of_accepted rfl hbefore hpassage haccepted hagrees hrunning hexpected
  · intro hcurrent controller motion path goal result e' h
    have hstart : (Call.startMotion controller motion path goal).Starts := trivial
    have hagrees := agrees_start hstatus hstart fun _ => False
    simp only [perform, h] at hagrees
    rcases result with err | id'
    · obtain ⟨j, hpassage, hmotion, hcancelled⟩ := startMotion_error hstatus hcurrent h
      refine ⟨j, hpassage.journal, by simp, fun _ _ => ?_⟩
      rcases hmotion with hmotion | hmotion <;> rw [hmotion]
      · exact ⟨hstatus, horderly.idle_of_notStarted hstatus, hcurrent, rfl, hcancelled⟩
      · exact ⟨rfl, rfl, rfl, rfl, hcancelled⟩
    · obtain ⟨j, hpassage, rfl, hanswered, haccepted, hrunning, hexpected, hcurrent',
        hcontroller⟩ := startMotion_ok h
      refine ⟨j, hpassage.journal, ?_, by simp⟩
      rintro _ ⟨⟩
      exact ⟨rfl, runs_of_accepted rfl hbefore hpassage haccepted hagrees hrunning hexpected,
        hanswered, hcurrent', hcontroller⟩

/-- A session in which a state was accepted before: a generator starts at one far end, and a motion
at another. -/
theorem start_all_or_nothing_started :
    let turns := [Turn.happen [.say [.nextState State.initial 1]], .call (.update none none)]
    let e₁ := (Engine.start { link := { farEnd := .starting } } {} default).after turns
    let e₂ := (Engine.start { link := { farEnd := .accepting } } {} default).after turns
    let move := ⟨.jointImpedance, .jointPosition, default, default⟩
    let e₁' := (e₁.startGenerator .jointVelocity).2
    let e₂' := (e₂.startMotion .jointImpedance .jointPosition default default).2
    (e₁.motion.status = .notStarted ∧ (e₁.startGenerator .jointVelocity).1 = .ok () ∧
      ∃ before j : Journal, Runs .jointVelocity before e₁' ∧
        e₁'.link.journal = e₁.link.journal ++ j ∧
        Answered (.startMotion .jointVelocity) 0 (.startMotion .success) j) ∧
    (e₂.motion.status = .notStarted ∧ e₂.motion.current = none ∧
      (e₂.startMotion .jointImpedance .jointPosition default default).1 = .ok 0 ∧
      ∃ before j : Journal, Runs .jointPosition before e₂' ∧
        e₂'.link.journal = e₂.link.journal ++ j ∧ Answered (.move move) 0 (.move .started) j ∧
        e₂'.motion.current = some 0 ∧ e₂'.controllerMode = some .jointImpedance) := by
  intro turns e₁ e₂ move e₁' e₂'
  have hstatus₁ : e₁.motion.status = .notStarted := by decide +kernel
  have hstatus₂ : e₂.motion.status = .notStarted := by decide +kernel
  have hcurrent : e₂.motion.current = none := by decide +kernel
  have hok₁ : (e₁.startGenerator .jointVelocity).1 = .ok () := by decide +kernel
  have hok₂ : (e₂.startMotion .jointImpedance .jointPosition default default).1 = .ok 0 := by
    decide +kernel
  obtain ⟨before₁, -, hgenerator, -⟩ :=
    start_all_or_nothing { link := { farEnd := .starting } } {} default turns hstatus₁
  obtain ⟨before₂, -, -, hmotion⟩ :=
    start_all_or_nothing { link := { farEnd := .accepting } } {} default turns hstatus₂
  obtain ⟨j₁, hjournal₁, hstarted₁, -⟩ := hgenerator .jointVelocity _ e₁' rfl
  obtain ⟨j₂, hjournal₂, hstarted₂, -⟩ := hmotion hcurrent _ _ _ _ _ e₂' rfl
  obtain ⟨hruns₁, hanswered₁⟩ := hstarted₁ hok₁
  obtain ⟨hid, hruns₂, hanswered₂, hcurrent₂, hcontroller⟩ := hstarted₂ 0 hok₂
  have hid₁ : e₁.session.nextId = 0 := by decide +kernel
  rw [hid₁] at hanswered₁
  rw [← hid] at hanswered₂ hcurrent₂
  exact ⟨⟨hstatus₁, hok₁, before₁, j₁, hruns₁, hjournal₁, hanswered₁⟩,
    hstatus₂, hcurrent, hok₂, before₂, j₂, hruns₂, hjournal₂, hanswered₂, hcurrent₂, hcontroller⟩

end Engine
end ArmControl
