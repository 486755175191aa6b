import ArmControl.Proofs.Launch

/-! # The moments at which an engine takes messages

An engine takes messages off its link only while it waits.  `Moments` gives, for everything that an
engine does, the moments at which it is about to take one, in order: the engine as it is then, and
the reply that it waits for.

What becomes of the engine when it has taken the message is `Engine.received`; a wait goes on from
there with what the judge makes of the motion (`passes_eq`, `wait_of_passes`, `wait_of_decided`). -/

namespace ArmControl

/-- A moment at which an engine is about to take a message. -/
structure Moment where
  engine : Engine
  /-- The kind and the id of the reply that it waits for. -/
  awaited : Option (FrameKind × UInt32)

/-- What is taken off the queue of the link. -/
def Moment.event? (m : Moment) : Option Incoming :=
  if m.engine.link.closed || m.engine.link.shutdown then none else m.engine.link.pending.head?

namespace Engine

/-! ### Taking a message -/

/-- The engine after it has taken what the link gives. -/
def received (e : Engine) : Engine :=
  match e.link.receive with
  | (.error err, link) => e.starve err link
  | (.ok incoming, link) => ((e.withLink link).intake incoming).2

/-- The engine after a message that does not decide a wait. -/
def passes {α : Type} (judge : Judge α) (e : Engine) : Option Engine :=
  match e.link.receive with
  | (.error _, _) => none
  | (.ok incoming, link) =>
    match (e.withLink link).intake incoming with
    | (.ok .stale, e') => some e'
    | (.ok (.event event), e') =>
      match judge event e'.motion with
      | (none, motion) => some (e'.withMotion motion)
      | (some _, _) => none
    | _ => none

section

variable {α : Type} {judge : Judge α} {e e' : Engine} {ended : Except SessionError α}

theorem passes_length_lt (h : e.passes judge = some e') :
    e'.link.pending.length < e.link.pending.length := by
  unfold passes at h
  split at h
  · cases h
  · rename_i incoming link hr
    split at h
    · rename_i e₁ ha
      obtain rfl := Option.some.inj h
      exact intake_length_lt hr ha (by simp)
    · rename_i event e₁ ha
      have hlt := intake_length_lt hr ha (by simp)
      split at h
      · obtain rfl := Option.some.inj h
        exact hlt
      · cases h
    · cases h

/-- A message that does not decide is received, and changes the motion at most. -/
theorem passes_eq (h : e.passes judge = some e') : ∃ m, e' = e.received.withMotion m := by
  unfold passes at h
  unfold received
  split at h
  · cases h
  · rename_i incoming link hr
    split at h
    · rename_i e₁ ha
      obtain rfl := Option.some.inj h
      exact ⟨e₁.motion, by rw [ha]; rfl⟩
    · rename_i event e₁ ha
      split at h
      · rename_i m hj
        obtain rfl := Option.some.inj h
        exact ⟨m, by rw [ha]⟩
      · cases h
    · cases h

theorem wait_eq (judge : Judge α) (ended : Except SessionError α) (e : Engine) :
    e.wait judge ended =
    match e.link.receive with
    | (.error err, link) => (.error (.link err), e.starve err link)
    | (.ok incoming, link) =>
      match (e.withLink link).intake incoming with
      | (.error err, e') => (.error err, e')
      | (.ok .ended, e') => (ended, e')
      | (.ok .stale, e') => e'.wait judge ended
      | (.ok (.event event), e') =>
        match judge event e'.motion with
        | (some result, motion) => (result, e'.withMotion motion)
        | (none, motion) => (e'.withMotion motion).wait judge ended := by
  rw [wait]
  generalize e.link.receive = received
  rcases received with ⟨err | incoming, link⟩
  · rfl
  · simp only
    generalize (e.withLink link).intake incoming = taken
    rcases taken with ⟨err | event | _ | _, e'⟩
    · rfl
    · rcases hj : judge event e'.motion with ⟨_ | result, m⟩ <;> simp only [hj]
    · rfl
    · rfl

theorem wait_of_passes (h : e.passes judge = some e') :
    e.wait judge ended = e'.wait judge ended := by
  rcases hr : e.link.receive with ⟨err | incoming, link⟩
  · simp [passes, hr] at h
  · rcases ha : (e.withLink link).intake incoming with ⟨err | event | _ | _, e₁⟩ <;>
      simp only [passes, hr, ha] at h
    · cases h
    · rcases hj : judge event e₁.motion with ⟨_ | result, m⟩ <;> simp only [hj] at h
      · obtain rfl := Option.some.inj h
        rw [wait_eq]
        simp only [hr, ha, hj]
      · cases h
    · obtain rfl := Option.some.inj h
      rw [wait_eq]
      simp only [hr, ha]
    · cases h

/-- A message that decides is the last one that a wait takes. -/
theorem wait_of_decided (ended : Except SessionError α) (h : e.passes judge = none) :
    ∃ m, (e.wait judge ended).2 = e.received.withMotion m := by
  rw [wait_eq]
  rcases hr : e.link.receive with ⟨err | incoming, link⟩
  · exact ⟨(e.starve err link).motion, by simp only [received, hr]; rfl⟩
  · rcases ha : (e.withLink link).intake incoming with ⟨err | event | _ | _, e₁⟩ <;>
      simp only [passes, received, hr, ha] at h ⊢
    · exact ⟨e₁.motion, rfl⟩
    · rcases hj : judge event e₁.motion with ⟨_ | result, m⟩ <;> simp only [hj] at h
      · cases h
      · exact ⟨m, rfl⟩
    · cases h
    · exact ⟨e₁.motion, rfl⟩

end

/-! ### Moments -/

namespace Moments

/-- The moments of a wait. -/
def wait {α : Type} (awaited : Option (FrameKind × UInt32)) (judge : Judge α) (e : Engine) :
    List Moment :=
  ⟨e, awaited⟩ ::
    match _p : e.passes judge with
    | some e' => wait awaited judge e'
    | none => []
termination_by e.link.pending.length
decreasing_by exact passes_length_lt _p

def poll (e : Engine) : List Moment := wait none judgeState e

def execute (request : Request) (e : Engine) : List Moment :=
  match e.session.send request with
  | (.error _, _) => []
  | (.ok id, session) =>
    wait (some (request.kind, id)) (judgeReply request.kind id) { e with session }

def update (motion : Option MotionCommand) (torques : Option Torques) (e : Engine) : List Moment :=
  match e.motion.deferred with
  | some _ => []
  | none =>
    if motion.isSome || torques.isSome || e.motion.status = .stopping then
      match e.sendCommand motion torques with
      | (.error _, _) => []
      | (.ok (), e) => poll e
    else poll e

def awaitGenerator (e : Engine) : List Moment :=
  if e.motion.status = .starting ∧ e.look.1 = false then
    poll e.look.2 ++
      match _p : e.look.2.poll with
      | (.ok (some _), e') => awaitGenerator e'
      | _ => []
  else []
termination_by e.link.pending.length
decreasing_by exact poll_length_lt (e := e.look.2) _p

def confirmGenerator (since : Option UInt64) (e : Engine) : List Moment :=
  match e.lastState with
  | some s =>
    if newerThan since s then
      match e.motion.observe s.motionMode with
      | (.error _, _) => []
      | (.ok (), m) => awaitGenerator (e.withMotion m)
    else awaitGenerator e
  | none => awaitGenerator e

def startGenerator (type : MotionType) (e : Engine) : List Moment :=
  if e.motion.status ≠ .notStarted then []
  else
    execute (.startMotion type) e ++
      match e.execute (.startMotion type) with
      | (.ok (_, .startMotion .success), e') =>
        confirmGenerator e.lastId (e'.withMotion (e'.motion.begin type.mode))
      | _ => []

def stopGenerator (e : Engine) : List Moment :=
  if e.motion.status ≠ .running then []
  else execute .stopMotion (e.withMotion (e.motion.exchange .running .stopping))

def awaitController (mode : ControllerMode) (since : Option UInt64) (e : Engine) : List Moment :=
  if e.confirmsController mode since = false ∧ e.look.1 = false then
    poll e.look.2 ++
      match _p : e.look.2.poll with
      | (.ok (some _), e') => awaitController mode since e'
      | _ => []
  else []
termination_by e.link.pending.length
decreasing_by exact poll_length_lt (e := e.look.2) _p

def setController (mode : ControllerMode) (e : Engine) : List Moment :=
  execute (.setController mode) e ++
    match e.execute (.setController mode) with
    | (.ok (_, .setController .success), e') => awaitController mode e.lastId e'
    | _ => []

def cancelMotion (e : Engine) : List Moment := execute .stopMove e

def launch (controller : ControllerMode) (motion : MotionMode) (path goal : Deviation)
    (e : Engine) : List Moment :=
  if e.motion.status ≠ .notStarted ∨ e.motion.current.isSome then []
  else
    let e₀ := e.withMotion { e.motion with outcome := none }
    execute (.move ⟨controller, motion, path, goal⟩) e₀ ++
      match e₀.execute (.move ⟨controller, motion, path, goal⟩) with
      | (.ok (id, .move .started), e₁) =>
        confirmGenerator e.lastId
          (e₁.withMotion ({ e₁.motion with current := some id }.begin motion))
      | _ => []

def startMotion (controller : ControllerMode) (motion : MotionMode) (path goal : Deviation)
    (e : Engine) : List Moment :=
  launch controller motion path goal e ++
    match e.launch controller motion path goal with
    | (.ok (_, .error _), e') => cancelMotion e'
    | _ => []

def drain (finishing : MotionCommand) (torques : Option Torques) (e : Engine) : List Moment :=
  if e.motion.status = .stopping then
    update (some finishing) torques e ++
      match _u : e.update (some finishing) torques with
      | (.ok (some _), e') => drain finishing torques e'
      | _ => []
  else []
termination_by e.supply
decreasing_by exact update_supply_lt _u

def awaitOutcome (id : UInt32) (e : Engine) : List Moment :=
  match e.motion.settle id with
  | (some _, _) => []
  | (none, m) => wait none (judgeOutcome id) (e.withMotion m)

def finishMotion (id : UInt32) (motion : Option MotionCommand) (torques : Option Torques)
    (e : Engine) : List Moment :=
  if e.motion.current ≠ some id then []
  else
    let e := e.withMotion (e.motion.exchange .running .stopping)
    let last := motion.getD ((e.lastState.map MotionCommand.hold).getD .neutral)
    drain last.finish torques e ++
      match e.drain last.finish torques with
      | (.error _, _) => []
      | (.ok (), e') => awaitOutcome id e'

end Moments
end Engine
end ArmControl
