import ArmControl.Proofs.Finish

/-! # The course of a motion

The course of a motion is its run up to the moment at which it has ended well or is to be cancelled
(`ControlLoop.course`); a run is its course, followed by the cancellation if the motion was accepted
and something went wrong (`run_eq`).

`course_cases` says what a course has done by then, told by the journal and by the record of the
calls of the callback. -/

namespace ArmControl

/-- No error that the callback answers with is a refusal. -/
def Callback.Tame {σ : Type} {credit : σ → Nat} {ι α : Type}
    (cb : Callback credit ι (Except SessionError α)) : Prop :=
  ∀ input e m err, (cb.call input e m).1 = .error err → err.isRefusal = false

theorem Callback.tame_map {σ : Type} {credit : σ → Nat} {ι ρ α : Type} (cb : Callback credit ι ρ)
    (f : ι → ρ → α) : (cb.map fun input answer => .ok (f input answer)).Tame := by
  intro input e m err h
  cases h

/-- Values that are not finite are an error, but not a refusal. -/
theorem LoopCommand.validate_isRefusal {c : LoopCommand} {err : SessionError}
    (h : c.validate = .error err) : err.isRefusal = false := by
  unfold validate at h
  split at h
  · cases h
    rfl
  · split at h <;> cases h
    rfl

/-- A far end that agrees on the version of the protocol, and accepts and confirms a motion. -/
def FarEnd.accepting : FarEnd where
  script :=
    [(.request .connect, [.reply (.connect .success protocolVersion) none 0]),
      (.request .move, [.nextState { State.initial with motionMode := .jointPosition } 1,
        .reply (.move .started) none 0])]

/-- A far end that besides brings the motion to its end once a command is the finishing one. -/
def FarEnd.completing : FarEnd where
  script := accepting.script ++
    [(.finished, [.nextState State.initial 1, .reply (.move .success) none 0])]

namespace ControlLoop

open Engine

variable {σ : Type} {credit : σ → Nat} {steering : Steering credit} {e e' : Engine} {id : UInt32}
  {i j : Journal}

/-! ### The cycles -/

/-- A call of the steering. -/
abbrev Call := Callback.Record Tick (Except SessionError (Step LoopCommand))

/-- The motion `id` has ended well after the steering has asked for it: the callback has answered
its last call with `stop`, after that the generator came to rest, and the success of the motion was
told. -/
def Completes (id : UInt32) (e : Engine) (i j : Journal) (calls : List Call) : Prop :=
  ∃ a b call, j = a ++ b ∧ calls.getLast? = some call ∧ call.answer = .ok .stop ∧
    call.journal = e.link.journal ++ a ∧ Journal.Rests (a.lastId e.lastId) b ∧
    .move .success ∈ (i ++ j).repliesTo .move id

/-- How the cycles of the motion `id` end, of which `i` has told so far. -/
inductive Cycled (steering : Steering credit) (id : UInt32) (e : Engine) (i j : Journal)
    (calls : List Call) : Except SessionError Unit → Motion → Prop
  | completed : Completes id e i j calls → Cycled steering id e i j calls (.ok ()) {}
  | failed {err m'} : (e.motion.deferred = none → steering.Tame → err.isRefusal = false) →
      Cycled steering id e i j calls (.error err) m'

theorem Completes.append_left {k : Journal} {calls : List Call}
    (h : Completes id e' (i ++ k) j calls)
    (hpassage : Passage e k e') : Completes id e i (k ++ j) calls := by
  obtain ⟨a, b, call, rfl, hcall, hstop, hjournal, hrests, hmem⟩ := h
  refine ⟨k ++ a, b, call, by simp, hcall, hstop, ?_, ?_, by rwa [← List.append_assoc]⟩
  · rw [hjournal, hpassage.journal, List.append_assoc]
  · rwa [Journal.lastId_append, ← hpassage.lastId]

/-- The cycles of a motion try no request. -/
theorem cycles_cases {s : State} {previous : UInt64} {last : LoopCommand} {p p' : σ × List Call}
    {result : Except SessionError Unit} (hway : UnderWay id i e)
    (h : cycles steering.recorded id s previous last e p = (result, p', e')) :
    ∃ j, Passage e j e' ∧ j.attempts = [] ∧ Cycled steering id e i j p'.2 result e'.motion := by
  fun_induction cycles steering.recorded id s previous last e p generalizing i with
  | case1 s previous last e p err p₁ e₁ hcall =>
      simp only [Prod.mk.injEq] at h
      obtain ⟨rfl, rfl, rfl⟩ := h
      obtain ⟨j, hpassage, hsilent, -⟩ := Callback.call_passage hcall
      refine ⟨j, hpassage, hsilent.1, .failed fun _ htame => ?_⟩
      exact htame _ e p.1 err (congrArg Prod.fst hcall)
  | case2 s previous last e p p₁ e₁ hcall finished e₂ hfinish =>
      simp only [Prod.mk.injEq] at h
      obtain ⟨rfl, rfl, rfl⟩ := h
      obtain ⟨j₁, hpassage₁, hsilent, -, hmotion⟩ := Callback.call_passage hcall
      obtain ⟨j₂, hpassage₂, hattempts, hfinished⟩ :=
        finishMotion_cases hfinish (hway.append hpassage₁ hmotion)
      refine ⟨_, hpassage₁.trans hpassage₂,
        (Journal.attempts_append_of_nil j₁ hattempts).trans hsilent.1, ?_⟩
      generalize e₂.motion = m' at hfinished
      cases hfinished with
      | success hrests hmem =>
          rw [hpassage₁.lastId] at hrests
          rw [List.append_assoc] at hmem
          have hcalls := congrArg List.getLast? (Callback.recorded_call hcall)
          rw [List.getLast?_concat] at hcalls
          exact .completed ⟨j₁, j₂, _, rfl, hcalls, rfl, hpassage₁.journal, hrests, hmem⟩
      | failed hrefusal => exact .failed fun hdeferred _ => hrefusal (hmotion ▸ hdeferred)
  | case3 s previous last e p command p₁ e₁ hcall err hvalid =>
      simp only [Prod.mk.injEq] at h
      obtain ⟨rfl, rfl, rfl⟩ := h
      obtain ⟨j, hpassage, hsilent, -⟩ := Callback.call_passage hcall
      exact ⟨j, hpassage, hsilent.1, .failed fun _ _ => LoopCommand.validate_isRefusal hvalid⟩
  | case4 s previous last e p command p₁ e₁ hcall hvalid s' e₂ hupdate ih =>
      obtain ⟨j₁, hpassage₁, hsilent, -, hmotion⟩ := Callback.call_passage hcall
      obtain ⟨-, hdeferred, j₂, hpassage₂, hattempts₂, -, hway₂⟩ :=
        (hway.append hpassage₁ hmotion).update hupdate
      have hpassage := hpassage₁.trans hpassage₂
      rw [List.append_assoc] at hway₂
      obtain ⟨j₃, hpassage₃, hattempts₃, hcycled⟩ := ih hway₂ h
      refine ⟨_, hpassage.trans hpassage₃, ?_, ?_⟩
      · rw [Journal.attempts_append_of_nil _ hattempts₃,
          Journal.attempts_append_of_nil _ hattempts₂]
        exact hsilent.1
      · generalize e'.motion = m' at hcycled
        cases hcycled with
        | completed hcompletes => exact .completed (hcompletes.append_left hpassage)
        | failed hrefusal => exact .failed fun _ => hrefusal hdeferred
  | case5 s previous last e p command p₁ e₁ hcall hvalid e₂ hupdate =>
      simp only [Prod.mk.injEq] at h
      obtain ⟨rfl, rfl, rfl⟩ := h
      obtain ⟨j₁, hpassage₁, hsilent, -⟩ := Callback.call_passage hcall
      obtain ⟨j₂, hpassage₂, hattempts, -⟩ := update_passage hupdate
      exact ⟨_, hpassage₁.trans hpassage₂,
        (Journal.attempts_append_of_nil j₁ hattempts).trans hsilent.1, .failed fun _ _ => rfl⟩
  | case6 s previous last e p command p₁ e₁ hcall hvalid err e₂ hupdate =>
      simp only [Prod.mk.injEq] at h
      obtain ⟨rfl, rfl, rfl⟩ := h
      obtain ⟨j₁, hpassage₁, hsilent, -, hmotion⟩ := Callback.call_passage hcall
      obtain ⟨j₂, hpassage₂, hattempts, -⟩ := update_passage hupdate
      exact ⟨_, hpassage₁.trans hpassage₂,
        (Journal.attempts_append_of_nil j₁ hattempts).trans hsilent.1,
        .failed fun hdeferred _ => update_isRefusal hupdate (hmotion ▸ hdeferred)⟩

/-! ### The run -/

variable {controller : ControllerMode} {motion : MotionMode}

/-- The course of a motion: an error if it is not accepted, and else what becomes of it. -/
def course (controller : ControllerMode) (motion : MotionMode) (steering : Steering credit)
    (e : Engine) (m : σ) : Except SessionError (Except SessionError Unit) × σ × Engine :=
  match e.launch controller motion e.settings.path e.settings.goal with
  | (.error err, e) => (.error err, m, e)
  | (.ok (_, .error err), e) => (.ok (.error err), m, e)
  | (.ok (id, .ok ()), e) =>
    let (result, m, e) := spin steering id e m
    (.ok result, m, e)

theorem course_erase (controller : ControllerMode) (motion : MotionMode)
    (steering : Steering credit) (e : Engine) (p : σ × List Call) :
    course controller motion steering e p.1 =
      erase Prod.fst (course controller motion steering.recorded e p) := by
  unfold course
  split
  · rfl
  · rfl
  · rw [spin_erase steering.recorded_erases]
    rfl

/-- A run is its course, and the cancellation of the motion if that was accepted and has failed. -/
theorem run_eq (controller : ControllerMode) (motion : MotionMode) (steering : Steering credit)
    (e : Engine) (m : σ) (hraised : e.raisePriority = .ok ()) :
    run controller motion steering e m =
    match course controller motion steering e m with
    | (.error err, m, e) => (.error err, m, e)
    | (.ok (.error err), m, e) => (.error err, m, e.cancelMotion)
    | (.ok (.ok ()), m, e) => (.ok (), m, e) := by
  unfold run course
  simp only [hraised, startMotion_eq]
  rcases e.launch controller motion e.settings.path e.settings.goal with
    ⟨err | ⟨id, err | ⟨⟩⟩, e₁⟩
  · rfl
  · rfl
  · simp only
    rcases spin steering id e₁ m with ⟨result, m₁, e₂⟩
    cases result <;> rfl

/-- How the course of a motion ends that is asked for under the id `id`. -/
inductive Coursed (steering : Steering credit) (mode : MotionMode) (id : UInt32) (e : Engine)
    (j : Journal) (calls : List Call) :
    Except SessionError (Except SessionError Unit) → Motion → Prop
  | refused {err} : .move .started ∉ j.repliesTo .move id → j.commands = [] → calls = [] →
      err.isRefusal = false →
      Coursed steering mode id e j calls (.error err) { e.motion with outcome := none }
  | failed {err m'} : .move .started ∈ j.repliesTo .move id →
      (e.motion.deferred = none → steering.Tame → err.isRefusal = false) →
      Coursed steering mode id e j calls (.ok (.error err)) m'
  | completed {i k e₁} : j = i ++ k → Passage e i e₁ → .move .started ∈ i.repliesTo .move id →
      (∃ s ∈ i.accepted e.lastId, s.motionMode = mode) → Completes id e₁ i k calls →
      Coursed steering mode id e j calls (.ok (.ok ())) {}

/-- A motion that a state has confirmed is under way. -/
theorem underWay_of_confirmed {m : Motion} {outcome : Option MoveStatus}
    (hpassage : Passage e j e')
    (hm : e'.motion =
      { ({ m with current := some id, outcome := none }.begin motion) with
        status := .running, outcome })
    (hcredits : ({ m with current := some id, outcome := none }.begin motion).Credits j outcome)
    (hrunning : ({ m with current := some id, outcome := none }.begin motion).status = .running ∨
      ∃ s ∈ j.accepted e.lastId, s.motionMode = motion) :
    UnderWay id j e' ∧ ∃ s ∈ j.accepted e.lastId, s.motionMode = motion := by
  obtain ⟨s, hs, hmode⟩ := hrunning.resolve_left (by simp [Motion.begin])
  obtain ⟨t, ht, -⟩ := hpassage.lastState_mem (List.ne_nil_of_mem hs)
  refine ⟨⟨by rw [hm], by rw [hm]; rfl, ?_, by simp [ht]⟩, s, hs, hmode⟩
  have htells := hcredits.tells (i := []) (.inl rfl) rfl
  rwa [hm]

/-- The course of a motion tries one request. -/
theorem course_cases {m : σ} {p' : σ × List Call}
    {result : Except SessionError (Except SessionError Unit)}
    (h : course controller motion steering.recorded e (m, []) = (result, p', e'))
    (hstatus : e.motion.status = .notStarted) (hcurrent : e.motion.current = none) :
    ∃ j, Passage e j e' ∧ j.attempts = [(Request.move
        ⟨controller, motion, e.settings.path, e.settings.goal⟩).encode e.session.nextId] ∧
      Coursed steering motion e.session.nextId e j p'.2 result e'.motion := by
  unfold course at h
  rcases hlaunch : e.launch controller motion e.settings.path e.settings.goal with ⟨launched, e₁⟩
  obtain ⟨j₁, hpassage₁, hattempts, hcommands, hlaunched⟩ := launch_cases hlaunch hstatus hcurrent
  rw [hlaunch] at h
  generalize hm : e₁.motion = m₁ at hlaunched
  cases hlaunched with
  | refused hnot hrefusal =>
      simp only [Prod.mk.injEq] at h
      obtain ⟨rfl, rfl, rfl⟩ := h
      exact ⟨j₁, hpassage₁, hattempts, hm ▸ .refused hnot hcommands rfl hrefusal⟩
  | accepted hstarted hawaited =>
      cases hawaited with
      | failed _ hrefusal =>
          simp only [Prod.mk.injEq] at h
          obtain ⟨rfl, rfl, rfl⟩ := h
          exact ⟨j₁, hpassage₁, hattempts, .failed hstarted fun hdeferred _ => hrefusal hdeferred⟩
      | confirmed hcredits hrunning =>
          obtain ⟨hway, s, hs, hmode⟩ := underWay_of_confirmed hpassage₁ hm hcredits hrunning
          obtain ⟨t, ht⟩ := Option.ne_none_iff_exists'.1 hway.state
          rcases hspin : spin steering.recorded e.session.nextId e₁ (m, []) with ⟨spun, p₁, e₂⟩
          simp only [hspin, Prod.mk.injEq] at h
          obtain ⟨rfl, rfl, rfl⟩ := h
          simp only [spin, ht] at hspin
          obtain ⟨j₂, hpassage₂, hattempts₂, hcycled⟩ := cycles_cases hway hspin
          refine ⟨_, hpassage₁.trans hpassage₂, ?_, ?_⟩
          · exact (Journal.attempts_append_of_nil j₁ hattempts₂).trans hattempts
          · generalize e₂.motion = m' at hcycled
            cases hcycled with
            | completed hcompletes =>
                exact .completed rfl hpassage₁ hstarted ⟨s, hs, hmode⟩ hcompletes
            | failed hrefusal =>
                rw [hm] at hrefusal
                exact .failed (Journal.mem_repliesTo_left hstarted j₂) hrefusal

/-- What a run has done, with `j` what has passed over the link and `calls` the calls of the
steering.  The run asks for one motion, under the next id `id`.

* `refused`: if nobody has told that the motion began, the run fails; the steering was not called,
  no command was sent, and no other request was tried.
* `cancelled`: if the motion began and the run fails, then with the error of its course.  When that
  has ended, one request was tried, and only the cancellation of the motion follows.
* `completed`: if the run succeeds, the motion began and a newer state reported its mode.  Then the
  steering answered its last call with `stop`; only after that a finishing command was sent, and a
  state reported that no generator is active.  The success of the motion was told. -/
structure RunContract (controller : ControllerMode) (motion : MotionMode)
    (steering : Steering credit) (e : Engine) (m : σ) (result : Except SessionError Unit)
    (calls : List Call) (e' : Engine) (j : Journal) (id : UInt32) (move : Bytes) : Prop where
  refused : .move .started ∉ j.repliesTo .move id →
    (∃ err, result = .error err) ∧ calls = [] ∧ j.commands = [] ∧ j.attempts = [move]
  cancelled : .move .started ∈ j.repliesTo .move id → ∀ err, result = .error err →
    ∃ (a b : Journal) (m₁ : σ) (e₁ : Engine),
      course controller motion steering e m = (.ok (.error err), m₁, e₁) ∧
      e₁.link.journal = e.link.journal ++ a ∧ e' = e₁.cancelMotion ∧ j = a ++ b ∧
      a.attempts = [move] ∧ b.attempts = [Request.stopMove.encode (id + 1)]
  completed : result = .ok () → j.attempts = [move] ∧ ∃ (a b : Journal) (call : Call), j = a ++ b ∧
    .move .started ∈ a.repliesTo .move id ∧ (∃ s ∈ a.accepted e.lastId, s.motionMode = motion) ∧
    calls.getLast? = some call ∧ call.answer = .ok .stop ∧ call.journal = e.link.journal ++ a ∧
    Journal.Rests (a.lastId e.lastId) b ∧ .move .success ∈ j.repliesTo .move id

/-- The outcome of a run tells what has been asked of the controller and what it has said. -/
theorem run_contract (controller : ControllerMode) (motion : MotionMode)
    (steering : Steering credit) (e : Engine) (m : σ) (hrealtime : e.settings.realtime = .ignore)
    (hstatus : e.motion.status = .notStarted) (hcurrent : e.motion.current = none) :
    ∃ result m' calls e' j, run controller motion steering e m = (result, m', e') ∧
      run controller motion steering.recorded e (m, []) = (result, (m', calls), e') ∧
      e'.link.journal = e.link.journal ++ j ∧
      RunContract controller motion steering e m result calls e' j e.session.nextId
        ((Request.move ⟨controller, motion, e.settings.path, e.settings.goal⟩).encode
          e.session.nextId) := by
  have hplain := run_erase steering.recorded_erases controller motion e (m, [])
  have hcourse' := course_erase controller motion steering e (m, [])
  have hrun := run_eq controller motion steering.recorded e (m, [])
    (raisePriority_of_ignore hrealtime)
  rcases hcourse : course controller motion steering.recorded e (m, []) with
    ⟨result, ⟨m', calls⟩, e₁⟩
  obtain ⟨j, hpassage, hattempts, hcoursed⟩ := course_cases hcourse hstatus hcurrent
  rw [hcourse] at hrun hcourse'
  generalize hm : e₁.motion = m₁ at hcoursed
  cases hcoursed with
  | refused hnot hcommands hcalls hrefusal =>
      rw [hrun] at hplain
      refine ⟨_, _, _, _, j, hplain, hrun, hpassage.journal, ?_, ?_, ?_⟩
      · exact fun _ => ⟨⟨_, rfl⟩, hcalls, hcommands, hattempts⟩
      · exact fun hstarted => absurd hstarted hnot
      · exact fun hok => by cases hok
  | @failed err _ hstarted hrefusal =>
      obtain ⟨j', hpassage', hattempts', -⟩ := e₁.cancelMotion_cases
      rw [hrun] at hplain
      refine ⟨_, _, _, _, j ++ j', hplain, hrun, (hpassage.trans hpassage').journal, ?_, ?_, ?_⟩
      · exact fun hnot => absurd (Journal.mem_repliesTo_left hstarted j') hnot
      · rintro - err' herr
        cases herr
        refine ⟨j, j', m', e₁, hcourse', hpassage.journal, rfl, rfl, hattempts, ?_⟩
        rw [hattempts', hpassage.nextId, hattempts]
        rfl
      · exact fun hok => by cases hok
  | completed hj hpassage₁ hstarted hmode hcompletes =>
      obtain ⟨a, b, call, rfl, hcall, hstop, hjournal, hrests, hmem⟩ := hcompletes
      rw [← List.append_assoc] at hj hmem
      rw [hrun] at hplain
      have hstarted' := Journal.mem_repliesTo_left hstarted a
      refine ⟨_, _, _, _, j, hplain, hrun, hpassage.journal, ?_, ?_, ?_⟩
      · exact fun hnot => absurd (hj ▸ Journal.mem_repliesTo_left hstarted' b) hnot
      · exact fun _ _ hfail => by cases hfail
      · refine fun _ => ⟨hattempts, _, b, call, hj, ?_, ?_, hcall, hstop, ?_, ?_, hj ▸ hmem⟩
        · exact hstarted'
        · obtain ⟨s, hs, hmode⟩ := hmode
          exact ⟨s, Journal.mem_accepted_left hs a, hmode⟩
        · rw [hjournal, hpassage₁.journal, List.append_assoc]
        · rwa [Journal.lastId_append, ← hpassage₁.lastId]

/-- The contract of a run that is stopped at once, which is never begun, fails or succeeds as the far
end has it. -/
theorem run_contract_of_stop :
    let steering : Steering fun _ : Unit => 0 := .ofPure fun _ m => (.ok .stop, m)
    let engine (farEnd : FarEnd) := Engine.start { link := { farEnd } } {} default
    let ran (e : Engine) := run .jointImpedance .jointPosition steering e ()
    let contracted (e : Engine) (ok : Bool) : Prop :=
      e.settings.realtime = .ignore ∧ e.motion.status = .notStarted ∧ e.motion.current = none ∧
      ∃ result m' calls e' j, ran e = (result, m', e') ∧ result.isOk = ok ∧
        run .jointImpedance .jointPosition steering.recorded e ((), []) =
          (result, (m', calls), e') ∧
        e'.link.journal = e.link.journal ++ j ∧
        RunContract .jointImpedance .jointPosition steering e () result calls e' j 0
          ((Request.move
            ⟨.jointImpedance, .jointPosition, e.settings.path, e.settings.goal⟩).encode 0)
    contracted (engine {}) false ∧ contracted (engine .accepting) false ∧
      contracted (engine .completing) true := by
  intro steering engine ran contracted
  have hcontract (farEnd : FarEnd) (ok : Bool) (hok : (ran (engine farEnd)).1.isOk = ok) :
      contracted (engine farEnd) ok := by
    obtain ⟨result, m', calls, e', j, hran, h⟩ :=
      run_contract .jointImpedance .jointPosition steering (engine farEnd) () rfl rfl rfl
    have hresult : (ran (engine farEnd)).1 = result := congrArg Prod.fst hran
    exact ⟨rfl, rfl, rfl, result, m', calls, e', j, hran, hresult ▸ hok, h⟩
  exact ⟨hcontract _ _ (by decide +kernel), hcontract _ _ (by decide +kernel),
    hcontract _ _ (by decide +kernel)⟩

end ControlLoop
end ArmControl
