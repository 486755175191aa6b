import ArmControl.Proofs.Confirmation

/-! # How a generator and a motion begin

`startGenerator_cases` and `launch_cases` list what can come of a start: it is refused, or not
confirmed, or some newer state has reported the mode that was asked for.

`Engine.launch` is the start of a motion up to the moment at which it is either confirmed or to be
cancelled.  `startMotion_eq` takes the start of a motion apart into the launch and the
cancellation. -/

namespace ArmControl.Engine

variable {e e' : Engine}

/-! ### The generator -/

/-- How the start of a generator ends, with `accepted` the states that were accepted on the way. -/
inductive Started (mode : MotionMode) (accepted : List State) :
    Except SessionError Unit → MotionStatus → Prop
  | running {s} : s ∈ accepted → s.motionMode = mode → Started mode accepted (.ok ()) .running
  | failed {err} : Started mode accepted (.error err) .notStarted

theorem startGenerator_of_busy {type : MotionType} (h : e.motion.status ≠ .notStarted) :
    e.startGenerator type = (.error (.motion .alreadyGenerating), e) := by
  simp [startGenerator, h]

theorem startGenerator_cases {type : MotionType} {result : Except SessionError Unit}
    (h : e.startGenerator type = (result, e')) (hstatus : e.motion.status = .notStarted) :
    ∃ j, Passage e j e' ∧ j.commands = [] ∧
      Started type.mode (j.accepted e.lastId) result e'.motion.status := by
  have hnone := Motion.lasting_notStarted.execute (.startMotion type) hstatus
  rcases hexecute : e.execute (.startMotion type) with ⟨answer, e₁⟩
  obtain ⟨j₁, hpassage₁, -, hcommands, -⟩ := execute_cases hexecute
  rw [hexecute] at hnone
  simp only [startGenerator, hstatus, ne_eq, not_true_eq_false, if_false, hexecute] at h
  split at h
  · rename_i heq
    obtain ⟨rfl, rfl⟩ := Prod.mk.inj heq
    obtain ⟨rfl, rfl⟩ := Prod.mk.inj h
    exact ⟨j₁, hpassage₁, hcommands, hnone ▸ .failed⟩
  · rename_i e₂ heq
    obtain ⟨rfl, rfl⟩ := Prod.mk.inj heq
    obtain ⟨j₂, hpassage₂, hsilent, hawaited⟩ := confirmGenerator_cases h rfl
    refine ⟨_, (hpassage₁.withMotion _).trans hpassage₂,
      (Journal.commands_append_of_nil j₁ hsilent.2).trans hcommands, ?_⟩
    generalize e'.motion = m' at hawaited
    cases hawaited with
    | confirmed _ hrunning =>
        obtain ⟨s, hs, hmode⟩ := hrunning.resolve_left (by simp [withMotion, Motion.begin])
        exact .running (hpassage₁.mem_accepted_trans hs) hmode
    | failed hstopped _ => exact hstopped ▸ .failed
  · rename_i heq
    obtain ⟨rfl, rfl⟩ := Prod.mk.inj heq
    obtain ⟨rfl, rfl⟩ := Prod.mk.inj h
    exact ⟨j₁, hpassage₁, hcommands, hnone ▸ .failed⟩

/-! ### The motion -/

variable {controller : ControllerMode} {motion : MotionMode} {path goal : Deviation}

/-- Starts a motion, but does not cancel it when it is not confirmed. -/
def launch (controller : ControllerMode) (motion : MotionMode) (path goal : Deviation)
    (e : Engine) : Except SessionError (UInt32 × Except SessionError Unit) × Engine :=
  if e.motion.status ≠ .notStarted ∨ e.motion.current.isSome then
    (.error (.motion .alreadyMoving), e)
  else
    let since := e.lastId
    let e := e.withMotion { e.motion with outcome := none }
    match e.execute (.move ⟨controller, motion, path, goal⟩) with
    | (.error err, e) => (.error err, e)
    | (.ok (id, .move .started), e) =>
      let e := e.withMotion ({ e.motion with current := some id }.begin motion)
      match e.confirmGenerator since with
      | (.error err, e) => (.ok (id, .error err), e)
      | (.ok (), e) => (.ok (id, .ok ()), { e with controllerMode := some controller })
    | (.ok (_, reply), e) => (.error (.motion (.moveRejected reply)), e)

/-- The start of a motion is its launch, and its cancellation if it is not confirmed. -/
theorem startMotion_eq : e.startMotion controller motion path goal =
    match e.launch controller motion path goal with
    | (.error err, e) => (.error err, e)
    | (.ok (_, .error err), e) => (.error err, e.cancelMotion)
    | (.ok (id, .ok ()), e) => (.ok id, e) := by
  unfold startMotion launch
  split
  · rfl
  · simp only
    generalize (e.withMotion _).execute _ = answer
    rcases answer with ⟨err | ⟨id, reply⟩, e₁⟩
    · rfl
    · by_cases hreply : reply = .move .started
      · subst hreply
        simp only
        generalize confirmGenerator _ _ = confirmed
        rcases confirmed with ⟨err | ⟨⟩, e₂⟩ <;> rfl
      · simp

/-- How the launch of a motion ends whose request has the id `id`: the request is not accepted, or
the motion is under way and its generator awaited. -/
inductive Launched (m : Motion) (mode : MotionMode) (id : UInt32) (j : Journal)
    (accepted : List State) :
    Except SessionError (UInt32 × Except SessionError Unit) → Motion → Prop
  | refused {err} : .move .started ∉ j.repliesTo .move id → err.isRefusal = false →
      Launched m mode id j accepted (.error err) { m with outcome := none }
  | accepted {result m'} : .move .started ∈ j.repliesTo .move id →
      Awaited ({ m with current := some id, outcome := none }.begin mode) j accepted result m' →
      Launched m mode id j accepted (.ok (id, result)) m'

/-- A launch tries one request, sends no command, and counts as confirmed only by a state that was
accepted on the way. -/
theorem launch_cases {result : Except SessionError (UInt32 × Except SessionError Unit)}
    (h : e.launch controller motion path goal = (result, e'))
    (hstatus : e.motion.status = .notStarted) (hcurrent : e.motion.current = none) :
    ∃ j, Passage e j e' ∧
      j.attempts = [(Request.move ⟨controller, motion, path, goal⟩).encode e.session.nextId] ∧
      j.commands = [] ∧
      Launched e.motion motion e.session.nextId j (j.accepted e.lastId) result e'.motion := by
  let e₀ := e.withMotion { e.motion with outcome := none }
  have hinert := execute_motion_of_inert (e := e₀) hstatus hcurrent
    (.move ⟨controller, motion, path, goal⟩)
  rcases hexecute : e₀.execute (.move ⟨controller, motion, path, goal⟩) with ⟨answer, e₁⟩
  obtain ⟨j₁, hpassage₁, hattempts, hcommands, hexecuted⟩ := execute_cases hexecute
  change Executed .move e.session.nextId (j₁.repliesTo .move e.session.nextId) answer at hexecuted
  replace hpassage₁ : Passage e j₁ e₁ := hpassage₁.of_withMotion
  rw [hexecute] at hinert
  have hidle : ¬ (e.motion.status ≠ .notStarted ∨ e.motion.current.isSome) := by
    simp [hstatus, hcurrent]
  simp only [launch, if_neg hidle] at h
  split at h
  · rename_i heq
    obtain ⟨rfl, rfl⟩ := Prod.mk.inj (hexecute.symm.trans heq)
    obtain ⟨rfl, rfl⟩ := Prod.mk.inj h
    refine ⟨j₁, hpassage₁, hattempts, hcommands, hinert ▸ .refused ?_ hexecuted.isRefusal⟩
    cases hexecuted with
    | broken hnone _ => exact hnone ▸ List.not_mem_nil
  · rename_i id e₂ heq
    obtain ⟨rfl, rfl⟩ := Prod.mk.inj (hexecute.symm.trans heq)
    have hid : id = e.session.nextId ∧ .move .started ∈ j₁.repliesTo .move e.session.nextId := by
      cases hexecuted with
      | answered honly _ => exact ⟨rfl, honly ▸ List.mem_singleton_self _⟩
    obtain ⟨rfl, hstarted⟩ := hid
    rcases hconfirm : confirmGenerator e.lastId (e₁.withMotion
      ({ e₁.motion with current := some e.session.nextId }.begin motion)) with ⟨confirmed, e₂⟩
    obtain ⟨j₂, hpassage₂, hsilent, hawaited⟩ := confirmGenerator_cases hconfirm rfl
    have hmotion : e₁.motion = { e.motion with outcome := none } := hinert
    have hpassage := (hpassage₁.withMotion _).trans hpassage₂
    have hlaunched : Launched e.motion motion e.session.nextId (j₁ ++ j₂)
        ((j₁ ++ j₂).accepted e.lastId) (.ok (e.session.nextId, confirmed)) e₂.motion := by
      refine .accepted ?_ ?_
      · exact Journal.mem_repliesTo_left hstarted j₂
      · simp only [withMotion, hmotion] at hawaited
        exact hawaited.mono j₁ fun s hs => hpassage₁.mem_accepted_trans hs
    rw [hconfirm] at h
    have hresult : result = .ok (e.session.nextId, confirmed) ∧ Passage e (j₁ ++ j₂) e' ∧
        e'.motion = e₂.motion := by
      cases confirmed with
      | error err =>
          obtain ⟨rfl, rfl⟩ := Prod.mk.inj h
          exact ⟨rfl, hpassage, rfl⟩
      | ok _ =>
          obtain ⟨rfl, rfl⟩ := Prod.mk.inj h
          exact ⟨rfl, hpassage.setController _, rfl⟩
    obtain ⟨rfl, hpassage, hmotion⟩ := hresult
    refine ⟨j₁ ++ j₂, hpassage, ?_, ?_, hmotion ▸ hlaunched⟩
    · exact (Journal.attempts_append_of_nil j₁ hsilent.1).trans hattempts
    · exact (Journal.commands_append_of_nil j₁ hsilent.2).trans hcommands
  · rename_i reply e₂ hreply heq
    obtain ⟨rfl, rfl⟩ := Prod.mk.inj (hexecute.symm.trans heq)
    obtain ⟨rfl, rfl⟩ := Prod.mk.inj h
    refine ⟨j₁, hpassage₁, hattempts, hcommands, hinert ▸ .refused ?_ rfl⟩
    cases hexecuted with
    | answered honly _ =>
        rw [honly, List.mem_singleton]
        exact fun heq => hreply heq.symm

/-! ### The cancellation -/

/-- A cancellation tries one request, sends no command, and leaves no motion behind. -/
theorem cancelMotion_cases (e : Engine) :
    ∃ j, Passage e j e.cancelMotion ∧ j.attempts = [Request.stopMove.encode e.session.nextId] ∧
      j.commands = [] ∧ e.cancelMotion.motion = {} := by
  rcases hexecute : e.execute .stopMove with ⟨answer, e₁⟩
  obtain ⟨j, hpassage, hattempts, hcommands, -⟩ := execute_cases hexecute
  refine ⟨j, ?_, hattempts, hcommands, rfl⟩
  simp only [cancelMotion, hexecute]
  exact hpassage.withMotion _

end ArmControl.Engine
