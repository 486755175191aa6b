import ArmControl.Proofs.Growth

/-! # What an engine does, with its moments

A `Procedure` is something that an engine does: its result and the engine that it leaves, together
with the moments at which it takes messages, which lie on a path between the two engines.
Procedures follow one another in the manner of a monad, and a body that says whether to go on can be
repeated (`Repetition`).

The operations of the engine are procedures with the moments that `Moments` gives for them.  For
each operation `X` the theorem `X_eq` says how it is made of smaller ones, and of the few that touch
the link or the motion themselves: `wait`, `transmit`, `command`, `look`, `check` and `confirm`.  So
a fact about everything that an engine does needs to be shown of these few alone. -/

namespace ArmControl

namespace Engine

/-! ### Loops, one step at a time -/

theorem awaitGenerator_eq (e : Engine) : e.awaitGenerator =
    match e.motion.status with
    | .running => (.ok (), e)
    | .starting =>
      match e.look with
      | (true, e₁) => (.error (.motion (.unconfirmed e₁.motion.expected)), e₁.resetMotion)
      | (false, e₁) =>
        match e₁.poll with
        | (.ok (some _), e₂) => e₂.awaitGenerator
        | (.ok none, e₂) => (.error .closed, e₂.resetMotion)
        | (.error err, e₂) => (.error err, e₂.resetMotion)
    | _ =>
      (.error (e.motion.deferred.getD (.motion .stoppedBeforeConfirmed)),
        e.withMotion { e.motion with deferred := none }) := by
  rw [awaitGenerator]
  cases e.motion.status with
  | notStarted | running | stopping => rfl
  | starting =>
      generalize e.look = looked
      rcases looked with ⟨late, e₁⟩
      cases late with
      | true => rfl
      | false =>
          simp only
          generalize e₁.poll = polled
          rcases polled with ⟨err | _ | s, e₂⟩ <;> rfl

theorem awaitController_eq (mode : ControllerMode) (since : Option UInt64) (e : Engine) :
    e.awaitController mode since =
    if e.confirmsController mode since then (.ok (), { e with controllerMode := some mode })
    else
      match e.look with
      | (true, e₁) => (.error (.motion (.controllerUnconfirmed mode)), e₁)
      | (false, e₁) =>
        match e₁.poll with
        | (.ok (some _), e₂) => e₂.awaitController mode since
        | (.ok none, e₂) => (.error .closed, e₂)
        | (.error err, e₂) => (.error err, e₂) := by
  rw [awaitController]
  generalize e.look = looked
  rcases looked with ⟨late, e₁⟩
  cases late with
  | true => rfl
  | false =>
      simp only
      generalize e₁.poll = polled
      rcases polled with ⟨err | _ | s, e₂⟩ <;> rfl

theorem drain_eq (finishing : MotionCommand) (torques : Option Torques) (e : Engine) :
    e.drain finishing torques =
    if e.motion.status = .stopping then
      match e.update (some finishing) torques with
      | (.ok (some _), e') => e'.drain finishing torques
      | (.ok none, e') => (.error .closed, e')
      | (.error err, e') => (.error err, e')
    else (.ok (), e) := by
  rw [drain]
  generalize e.update (some finishing) torques = updated
  rcases updated with ⟨err | _ | s, e'⟩ <;> rfl

end Engine

open Engine

/-! ### Procedures -/

/-- Something that an engine does, and the moments at which it takes messages on the way. -/
structure Procedure (α : Type) where
  run : Engine → α × Engine
  moments : Engine → List Moment
  path : ∀ e, Path e (moments e) (run e).2

namespace Procedure

variable {α β γ τ : Type}

theorem ext {P Q : Procedure α} (hrun : ∀ e, P.run e = Q.run e)
    (hmoments : ∀ e, P.moments e = Q.moments e) : P = Q := by
  cases P
  cases Q
  obtain rfl := funext hrun
  obtain rfl := funext hmoments
  rfl

instance : Monad Procedure where
  pure a := ⟨fun e => (a, e), fun _ => [], Engine.Path.refl⟩
  bind P K :=
    { run := fun e => (K (P.run e).1).run (P.run e).2
      moments := fun e => P.moments e ++ (K (P.run e).1).moments (P.run e).2
      path := fun e => (P.path e).trans ((K _).path _) }

theorem run_bind (P : Procedure α) (K : α → Procedure β) (e : Engine) :
    (P >>= K).run e = (K (P.run e).1).run (P.run e).2 := rfl

theorem moments_bind (P : Procedure α) (K : α → Procedure β) (e : Engine) :
    (P >>= K).moments e = P.moments e ++ (K (P.run e).1).moments (P.run e).2 := rfl

theorem run_pure (a : α) (e : Engine) : (pure a : Procedure α).run e = (a, e) := rfl

theorem moments_pure (a : α) (e : Engine) : (pure a : Procedure α).moments e = [] := rfl

/-- The journal only grows. -/
theorem grows (P : Procedure α) (e : Engine) :
    ∃ j : Journal, (P.run e).2.link.journal = e.link.journal ++ j := by
  obtain ⟨j, hpassage, -⟩ := (P.path e).passage
  exact ⟨j, hpassage.journal⟩

/-! ### The smallest procedures -/

/-- Looks at something, and does nothing. -/
def see (v : Engine → γ) : Procedure γ := ⟨fun e => (v e, e), fun _ => [], Engine.Path.refl⟩

/-- Does something with the motion in progress. -/
def check (f : Motion → α × Motion) : Procedure α :=
  ⟨fun e => ((f e.motion).1, e.withMotion (f e.motion).2), fun _ => [],
    fun _ => .of_act (.motion _)⟩

def modify (f : Motion → Motion) : Procedure Unit := check fun m => ((), f m)

/-- Notes which controller was confirmed. -/
def confirm (mode : ControllerMode) : Procedure Unit :=
  ⟨fun e => ((), { e with controllerMode := some mode }), fun _ => [],
    fun _ => .of_act (.controller _)⟩

def look : Procedure Bool := ⟨Engine.look, fun _ => [], fun _ => .of_act .look⟩

/-- Sends a request. -/
def transmit (request : Request) : Procedure (Except LinkError UInt32) :=
  ⟨fun e => ((e.session.send request).1, { e with session := (e.session.send request).2 }),
    fun _ => [], fun _ => .of_act (.send request)⟩

/-- Sends a command. -/
def command (motion : Option MotionCommand) (torques : Option Torques) :
    Procedure (Except SessionError Unit) :=
  ⟨sendCommand motion torques, fun _ => [], fun _ => .of_act (.command motion torques)⟩

def wait (awaited : Option (FrameKind × UInt32)) (judge : Judge α)
    (ended : Except SessionError α) : Procedure (Except SessionError α) :=
  ⟨Engine.wait judge ended, Moments.wait awaited judge, path_wait awaited judge ended⟩

end Procedure

/-! ### Repetitions -/

/-- A body that is carried out again and again until it gives a result; each round lowers the
rank. -/
structure Repetition (β α : Type) where
  body : β → Procedure (β ⊕ α)
  rank : β → Engine → Nat
  rank_lt : ∀ {b b' e e'}, (body b).run e = (.inl b', e') → rank b' e' < rank b e

namespace Repetition

variable {α β : Type} (R : Repetition β α)

def run (b : β) (e : Engine) : α × Engine :=
  match _h : (R.body b).run e with
  | (.inl b', e') => run b' e'
  | (.inr a, e') => (a, e')
termination_by R.rank b e
decreasing_by exact R.rank_lt _h

def moments (b : β) (e : Engine) : List Moment :=
  (R.body b).moments e ++
    match _h : (R.body b).run e with
    | (.inl b', e') => moments b' e'
    | (.inr _, _) => []
termination_by R.rank b e
decreasing_by exact R.rank_lt _h

theorem run_eq (b : β) (e : Engine) : R.run b e =
    match (R.body b).run e with
    | (.inl b', e') => R.run b' e'
    | (.inr a, e') => (a, e') := by
  rw [run]
  generalize (R.body b).run e = round
  rcases round with ⟨b' | a, e'⟩ <;> rfl

theorem moments_eq (b : β) (e : Engine) : R.moments b e =
    (R.body b).moments e ++
      match (R.body b).run e with
      | (.inl b', e') => R.moments b' e'
      | (.inr _, _) => [] := by
  rw [moments]
  generalize (R.body b).run e = round
  rcases round with ⟨b' | a, e'⟩ <;> rfl

theorem path (b : β) (e : Engine) : Path e (R.moments b e) (R.run b e).2 := by
  fun_induction run R b e with
  | case1 b e b' e' hround ih =>
      have hpath := (R.body b).path e
      rw [hround] at hpath
      rw [moments_eq]
      simp only [hround]
      exact hpath.trans ih
  | case2 b e a e' hround =>
      have hpath := (R.body b).path e
      rw [hround] at hpath
      rw [moments_eq]
      simp only [hround, List.append_nil]
      exact hpath

def procedure (b : β) : Procedure α := ⟨R.run b, R.moments b, R.path b⟩

theorem procedure_eq (b : β) : R.procedure b = (do
    match ← R.body b with
    | .inl b' => R.procedure b'
    | .inr a => return a) := by
  refine Procedure.ext (fun e => ?_) fun e => ?_
  · change R.run b e = _
    rw [run_eq, Procedure.run_bind]
    rcases (R.body b).run e with ⟨b' | a, e'⟩ <;> rfl
  · change R.moments b e = _
    rw [moments_eq, Procedure.moments_bind]
    rcases (R.body b).run e with ⟨b' | a, e'⟩ <;> rfl

end Repetition

namespace Procedure

variable {α : Type}

/-! ### The operations of the engine -/

def poll : Procedure (Except SessionError (Option State)) := wait none judgeState (.ok none)

theorem poll_run (e : Engine) : poll.run e = e.poll := rfl

def execute (request : Request) : Procedure (Except SessionError (UInt32 × Reply)) :=
  ⟨Engine.execute request, Moments.execute request, path_execute request⟩

theorem execute_eq (request : Request) : execute request = (do
    match ← transmit request with
    | .error err => return .error (.link err)
    | .ok id =>
      match ← wait (some (request.kind, id)) (judgeReply request.kind id) (.error .closed) with
      | .error err => return .error err
      | .ok reply => return .ok (id, reply)) := by
  refine ext (fun e => ?_) fun e => ?_
  · simp only [execute, Engine.execute, awaitReply, run_bind, transmit]
    rcases e.session.send request with ⟨err | id, session⟩
    · rfl
    · simp only [run_bind, wait]
      rcases Engine.wait _ _ _ with ⟨err | reply, e'⟩ <;> rfl
  · simp only [execute, Moments.execute, moments_bind, transmit]
    rcases e.session.send request with ⟨err | id, session⟩
    · rfl
    · simp only [moments_bind, wait, List.nil_append]
      rcases Engine.wait _ _ _ with ⟨err | reply, e'⟩ <;>
        simp only [moments_pure, List.append_nil]

def update (motion : Option MotionCommand) (torques : Option Torques) :
    Procedure (Except SessionError (Option State)) :=
  ⟨Engine.update motion torques, Moments.update motion torques, path_update motion torques⟩

theorem update_eq (motion : Option MotionCommand) (torques : Option Torques) :
    update motion torques = (do
    let m ← see Engine.motion
    match m.deferred with
    | some err => do
      modify fun m => { m with deferred := none }
      return .error err
    | none =>
      if motion.isSome || torques.isSome || m.status = .stopping then
        match ← command motion torques with
        | .error err => return .error err
        | .ok () => poll
      else poll) := by
  refine ext (fun e => ?_) fun e => ?_
  · simp only [update, Engine.update, run_bind, see]
    cases e.motion.deferred with
    | some err => rfl
    | none =>
        simp only
        split
        · simp only [run_bind, command]
          rcases sendCommand motion torques e with ⟨err | ⟨⟩, e'⟩ <;> rfl
        · rfl
  · simp only [update, Moments.update, moments_bind, see]
    cases e.motion.deferred with
    | some err => rfl
    | none =>
        simp only [List.nil_append]
        split
        · simp only [moments_bind, command, List.nil_append]
          rcases sendCommand motion torques e with ⟨err | ⟨⟩, e'⟩ <;> rfl
        · rfl

def awaitGenerator : Procedure (Except SessionError Unit) :=
  ⟨Engine.awaitGenerator, Moments.awaitGenerator, path_awaitGenerator⟩

theorem awaitGenerator_eq : awaitGenerator = (do
    match ← see fun e => e.motion.status with
    | .running => return .ok ()
    | .starting =>
      match ← look with
      | true => do
        let m ← see Engine.motion
        modify Motion.reset
        return .error (.motion (.unconfirmed m.expected))
      | false =>
        match ← poll with
        | .ok (some _) => awaitGenerator
        | .ok none => do
          modify Motion.reset
          return .error .closed
        | .error err => do
          modify Motion.reset
          return .error err
    | _ => do
      let m ← see Engine.motion
      modify fun m => { m with deferred := none }
      return .error (m.deferred.getD (.motion .stoppedBeforeConfirmed))) := by
  refine ext (fun e => ?_) fun e => ?_
  · change e.awaitGenerator = _
    rw [Engine.awaitGenerator_eq]
    simp only [run_bind, see]
    split
    · rfl
    · simp only [run_bind, look]
      rcases e.look with ⟨late, e₁⟩
      cases late with
      | true => rfl
      | false =>
          simp only [run_bind, poll_run]
          rcases e₁.poll with ⟨err | _ | s, e₂⟩ <;> rfl
    · rfl
  · change Moments.awaitGenerator e = _
    rw [Moments.awaitGenerator_eq]
    simp only [moments_bind, see, List.nil_append]
    split
    · rename_i hlook
      simp only [hlook.1, moments_bind, look, hlook.2, poll_run, List.nil_append]
      rcases e.look.2.poll with ⟨err | _ | s, e₂⟩ <;> rfl
    · rename_i hlook
      split
      · rfl
      · rename_i hstatus
        have hlate : e.look.1 = true := by simpa [hstatus] using hlook
        simp only [moments_bind, look, hlate]
        rfl
      · rfl

def confirmGenerator (since : Option UInt64) : Procedure (Except SessionError Unit) :=
  ⟨Engine.confirmGenerator since, Moments.confirmGenerator since, path_confirmGenerator since⟩

theorem confirmGenerator_eq (since : Option UInt64) : confirmGenerator since = (do
    match ← see Engine.lastState with
    | some s =>
      if newerThan since s then
        match ← check (Motion.observe s.motionMode) with
        | .error err => return .error err
        | .ok () => awaitGenerator
      else awaitGenerator
    | none => awaitGenerator) := by
  refine ext (fun e => ?_) fun e => ?_
  · simp only [confirmGenerator, Engine.confirmGenerator, run_bind, see]
    cases e.lastState with
    | none => rfl
    | some s =>
        simp only
        split
        · simp only [run_bind, check]
          rcases Motion.observe _ e.motion with ⟨err | ⟨⟩, m⟩ <;> rfl
        · rfl
  · simp only [confirmGenerator, Moments.confirmGenerator, moments_bind, see, List.nil_append]
    cases e.lastState with
    | none => rfl
    | some s =>
        simp only
        split
        · simp only [moments_bind, check, List.nil_append]
          rcases Motion.observe _ e.motion with ⟨err | ⟨⟩, m⟩ <;> rfl
        · rfl

def startGenerator (type : MotionType) : Procedure (Except SessionError Unit) :=
  ⟨Engine.startGenerator type, Moments.startGenerator type, path_startGenerator type⟩

theorem startGenerator_eq (type : MotionType) : startGenerator type = (do
    let status ← see fun e => e.motion.status
    if status ≠ .notStarted then return .error (.motion .alreadyGenerating)
    else
      let since ← see lastId
      match ← execute (.startMotion type) with
      | .error err => return .error err
      | .ok (_, .startMotion .success) => do
        modify (Motion.begin type.mode)
        confirmGenerator since
      | .ok (_, reply) => return .error (.motion (.startRejected reply))) := by
  refine ext (fun e => ?_) fun e => ?_
  · simp only [startGenerator, Engine.startGenerator, run_bind, see]
    split
    · rfl
    · simp only [run_bind, execute]
      rcases Engine.execute _ e with ⟨err | ⟨id, reply⟩, e₁⟩
      · rfl
      · by_cases hreply : reply = .startMotion .success
        · subst hreply
          rfl
        · simp [run_pure]
  · simp only [startGenerator, Moments.startGenerator, moments_bind, see, List.nil_append]
    split
    · rfl
    · simp only [moments_bind, execute, List.nil_append]
      rcases Engine.execute _ e with ⟨err | ⟨id, reply⟩, e₁⟩
      · rfl
      · by_cases hreply : reply = .startMotion .success
        · subst hreply
          rfl
        · simp [hreply, moments_pure]

def stopGenerator : Procedure (Except SessionError Unit) :=
  ⟨Engine.stopGenerator, Moments.stopGenerator, path_stopGenerator⟩

theorem stopGenerator_eq : stopGenerator = (do
    let status ← see fun e => e.motion.status
    if status ≠ .running then return .error (.motion .notRunning)
    else
      modify (Motion.exchange .running .stopping)
      match ← execute .stopMotion with
      | .error err => do
        modify (Motion.exchange .stopping .running)
        return .error err
      | .ok (_, .stopMotion .success) => return .ok ()
      | .ok (_, reply) => do
        modify (Motion.exchange .stopping .running)
        return .error (.motion (.stopRejected reply))) := by
  refine ext (fun e => ?_) fun e => ?_
  · simp only [stopGenerator, Engine.stopGenerator, run_bind, see]
    split
    · rfl
    · simp only [run_bind, modify, check, execute]
      rcases Engine.execute _ _ with ⟨err | ⟨id, reply⟩, e₁⟩
      · rfl
      · by_cases hreply : reply = .stopMotion .success
        · subst hreply
          rfl
        · simp only
          rfl
  · simp only [stopGenerator, Moments.stopGenerator, moments_bind, see, List.nil_append]
    split
    · rfl
    · simp only [moments_bind, modify, check, execute, List.nil_append]
      rcases Engine.execute _ _ with ⟨err | ⟨id, reply⟩, e₁⟩
      · exact (List.append_nil _).symm
      · by_cases hreply : reply = .stopMotion .success
        · subst hreply
          exact (List.append_nil _).symm
        · simp [moments_bind, moments_pure]

def awaitController (mode : ControllerMode) (since : Option UInt64) :
    Procedure (Except SessionError Unit) :=
  ⟨Engine.awaitController mode since, Moments.awaitController mode since,
    path_awaitController mode since⟩

theorem awaitController_eq (mode : ControllerMode) (since : Option UInt64) :
    awaitController mode since = (do
    match ← see (confirmsController mode since) with
    | true => do
      confirm mode
      return .ok ()
    | false =>
      match ← look with
      | true => return .error (.motion (.controllerUnconfirmed mode))
      | false =>
        match ← poll with
        | .ok (some _) => awaitController mode since
        | .ok none => return .error .closed
        | .error err => return .error err) := by
  refine ext (fun e => ?_) fun e => ?_
  · change e.awaitController mode since = _
    rw [Engine.awaitController_eq]
    simp only [run_bind, see]
    cases e.confirmsController mode since with
    | true => rfl
    | false =>
        simp only [run_bind, look, Bool.false_eq_true, if_false]
        rcases e.look with ⟨late, e₁⟩
        cases late with
        | true => rfl
        | false =>
            simp only [run_bind, poll_run]
            rcases e₁.poll with ⟨err | _ | s, e₂⟩ <;> rfl
  · change Moments.awaitController mode since e = _
    rw [Moments.awaitController_eq]
    simp only [moments_bind, see, List.nil_append]
    cases e.confirmsController mode since with
    | true => rfl
    | false =>
        simp only [moments_bind, look, true_and, List.nil_append]
        rcases e.look with ⟨late, e₁⟩
        cases late with
        | true => rfl
        | false =>
            simp only [moments_bind, poll_run, if_true]
            rcases e₁.poll with ⟨err | _ | s, e₂⟩ <;> rfl

def setController (mode : ControllerMode) : Procedure (Except SessionError Unit) :=
  ⟨Engine.setController mode, Moments.setController mode, path_setController mode⟩

theorem setController_eq (mode : ControllerMode) : setController mode = (do
    let since ← see lastId
    match ← execute (.setController mode) with
    | .error err => return .error err
    | .ok (_, .setController .success) => awaitController mode since
    | .ok (_, reply) => return .error (.motion (.controllerRejected mode reply))) := by
  refine ext (fun e => ?_) fun e => ?_
  · simp only [setController, Engine.setController, run_bind, see, execute]
    rcases Engine.execute _ e with ⟨err | ⟨id, reply⟩, e₁⟩
    · rfl
    · by_cases hreply : reply = .setController .success
      · subst hreply
        rfl
      · simp [run_pure]
  · simp only [setController, Moments.setController, moments_bind, see, execute, List.nil_append]
    rcases Engine.execute _ e with ⟨err | ⟨id, reply⟩, e₁⟩
    · rfl
    · by_cases hreply : reply = .setController .success
      · subst hreply
        rfl
      · simp [hreply, moments_pure]

/-! ### Motions -/

def cancelMotion : Procedure Unit :=
  ⟨fun e => ((), e.cancelMotion), Moments.cancelMotion, path_cancelMotion⟩

theorem cancelMotion_eq : cancelMotion = (do
    let _ ← execute .stopMove
    modify Motion.clear) :=
  ext (fun _ => rfl) fun _ => (List.append_nil _).symm

def launch (controller : ControllerMode) (motion : MotionMode) (path goal : Deviation) :
    Procedure (Except SessionError (UInt32 × Except SessionError Unit)) :=
  ⟨Engine.launch controller motion path goal, Moments.launch controller motion path goal,
    path_launch controller motion path goal⟩

theorem launch_eq (controller : ControllerMode) (motion : MotionMode) (path goal : Deviation) :
    launch controller motion path goal = (do
    let m ← see Engine.motion
    if m.status ≠ .notStarted ∨ m.current.isSome then return .error (.motion .alreadyMoving)
    else
      let since ← see lastId
      modify fun m => { m with outcome := none }
      match ← execute (.move ⟨controller, motion, path, goal⟩) with
      | .error err => return .error err
      | .ok (id, .move .started) => do
        modify fun m => { m with current := some id }.begin motion
        match ← confirmGenerator since with
        | .error err => return .ok (id, .error err)
        | .ok () => do
          confirm controller
          return .ok (id, .ok ())
      | .ok (_, reply) => return .error (.motion (.moveRejected reply))) := by
  refine ext (fun e => ?_) fun e => ?_
  · simp only [launch, Engine.launch, run_bind, see]
    split
    · rfl
    · simp only [run_bind, modify, check, execute]
      rcases Engine.execute _ _ with ⟨err | ⟨id, reply⟩, e₁⟩
      · rfl
      · by_cases hreply : reply = .move .started
        · subst hreply
          simp only [run_bind, confirmGenerator]
          rcases Engine.confirmGenerator _ _ with ⟨err | ⟨⟩, e₂⟩ <;> rfl
        · simp [run_pure]
  · simp only [launch, Moments.launch, moments_bind, see, List.nil_append]
    split
    · rfl
    · simp only [moments_bind, modify, check, execute, List.nil_append]
      rcases Engine.execute _ _ with ⟨err | ⟨id, reply⟩, e₁⟩
      · rfl
      · by_cases hreply : reply = .move .started
        · subst hreply
          simp only [moments_bind, confirmGenerator, List.nil_append]
          rcases Engine.confirmGenerator _ _ with ⟨err | ⟨⟩, e₂⟩ <;>
            exact congrArg _ (List.append_nil _).symm
        · simp [hreply, moments_pure]

def startMotion (controller : ControllerMode) (motion : MotionMode) (path goal : Deviation) :
    Procedure (Except SessionError UInt32) :=
  ⟨Engine.startMotion controller motion path goal, Moments.startMotion controller motion path goal,
    path_startMotion controller motion path goal⟩

theorem startMotion_eq (controller : ControllerMode) (motion : MotionMode)
    (path goal : Deviation) : startMotion controller motion path goal = (do
    match ← launch controller motion path goal with
    | .error err => return .error err
    | .ok (_, .error err) => do
      cancelMotion
      return .error err
    | .ok (id, .ok ()) => return .ok id) := by
  refine ext (fun e => ?_) fun e => ?_
  · change Engine.startMotion controller motion path goal e = _
    rw [Engine.startMotion_eq]
    simp only [run_bind, launch]
    rcases Engine.launch controller motion path goal e with ⟨err | ⟨id, err | ⟨⟩⟩, e₁⟩ <;> rfl
  · simp only [startMotion, Moments.startMotion, moments_bind, launch]
    rcases Engine.launch controller motion path goal e with ⟨err | ⟨id, err | ⟨⟩⟩, e₁⟩
    · rfl
    · simp only [moments_bind, moments_pure, List.append_nil]
      rfl
    · rfl

def drain (finishing : MotionCommand) (torques : Option Torques) :
    Procedure (Except SessionError Unit) :=
  ⟨Engine.drain finishing torques, Moments.drain finishing torques, path_drain finishing torques⟩

theorem drain_eq (finishing : MotionCommand) (torques : Option Torques) :
    drain finishing torques = (do
    let status ← see fun e => e.motion.status
    if status = .stopping then
      match ← update (some finishing) torques with
      | .ok (some _) => drain finishing torques
      | .ok none => return .error .closed
      | .error err => return .error err
    else return .ok ()) := by
  refine ext (fun e => ?_) fun e => ?_
  · change e.drain finishing torques = _
    rw [Engine.drain_eq]
    simp only [run_bind, see]
    split
    · simp only [run_bind, update]
      rcases e.update (some finishing) torques with ⟨err | _ | s, e'⟩ <;> rfl
    · rfl
  · change Moments.drain finishing torques e = _
    rw [Moments.drain_eq]
    simp only [moments_bind, see, List.nil_append]
    split
    · simp only [moments_bind, update]
      rcases e.update (some finishing) torques with ⟨err | _ | s, e'⟩ <;> rfl
    · rfl

def awaitOutcome (id : UInt32) : Procedure (Except SessionError Unit) :=
  ⟨Engine.awaitOutcome id, Moments.awaitOutcome id, path_awaitOutcome id⟩

theorem awaitOutcome_eq (id : UInt32) : awaitOutcome id = (do
    match ← check (Motion.settle id) with
    | some result => return result
    | none => wait none (judgeOutcome id) (.error .closed)) := by
  refine ext (fun e => ?_) fun e => ?_
  · simp only [awaitOutcome, Engine.awaitOutcome, run_bind, check]
    rcases e.motion.settle id with ⟨_ | result, m⟩ <;> rfl
  · simp only [awaitOutcome, Moments.awaitOutcome, moments_bind, check, List.nil_append]
    rcases e.motion.settle id with ⟨_ | result, m⟩ <;> rfl

def finishMotion (id : UInt32) (motion : Option MotionCommand) (torques : Option Torques) :
    Procedure (Except SessionError Unit) :=
  ⟨Engine.finishMotion id motion torques, Moments.finishMotion id motion torques,
    path_finishMotion id motion torques⟩

theorem finishMotion_eq (id : UInt32) (motion : Option MotionCommand) (torques : Option Torques) :
    finishMotion id motion torques = (do
    let current ← see fun e => e.motion.current
    if current ≠ some id then return .error (.conflict (.notInProgress id))
    else
      modify (Motion.exchange .running .stopping)
      let s ← see Engine.lastState
      match ← drain (motion.getD ((s.map MotionCommand.hold).getD .neutral)).finish torques with
      | .error err => return .error err
      | .ok () => awaitOutcome id) := by
  refine ext (fun e => ?_) fun e => ?_
  · simp only [finishMotion, Engine.finishMotion, run_bind, see]
    split
    · rfl
    · simp only [run_bind, modify, check, drain]
      generalize Engine.drain _ torques _ = drained
      rcases drained with ⟨err | ⟨⟩, e₁⟩ <;> rfl
  · simp only [finishMotion, Moments.finishMotion, moments_bind, see, List.nil_append]
    split
    · rfl
    · simp only [moments_bind, modify, check, drain, List.nil_append]
      generalize Engine.drain _ torques _ = drained
      rcases drained with ⟨err | ⟨⟩, e₁⟩ <;> rfl

end Procedure
end ArmControl
