import ArmControl.Proofs.Procedure
import ArmControl.Proofs.Reaching

/-! # Branches that are never taken

In some places the engine provides for what does not come.  It is prepared to find a generator
stopped while it waits for its confirmation, a motion gone or failed while it waits for the final
status, no state when a motion has been confirmed, and a reply of another kind in answer to a
request.

`Fallbacks` is anything that may be done there instead, and the operations of the engine are given
once more with it in the place of these branches.  Wherever one of the branches is taken, some
fallbacks are noticed (`noticed`).  For each operation `X` that has one, `X_eq` says under which
conditions it does the same as before, whatever the fallbacks; and these conditions hold of every
engine that can be reached (`fallbacks_idle`).  So none of the branches is ever taken. -/

namespace ArmControl

/-! ### What comes of a motion -/

namespace Motion

variable {id : UInt32} {m m' : Motion}

theorem status_of_observe {mode : MotionMode}
    (h : m.observe mode = (.ok (), m')) (hstatus : m.status = .starting) :
    m'.status = .starting ∨ m'.status = .running := by
  rcases observe_cases h with ⟨-, rfl, -⟩ | ⟨-, -, -, rfl⟩ | ⟨-, hstopping, -⟩ | ⟨_, herr, -⟩
  · exact .inl hstatus
  · exact .inr rfl
  · rw [hstatus] at hstopping
    cases hstopping
  · cases herr

/-- The motion with this id is in progress, and has succeeded if it has ended at all. -/
structure Pursues (id : UInt32) (m : Motion) : Prop where
  current : m.current = some id
  outcome_success : m.outcome = none ∨ m.outcome = some .success

theorem Pursues.of_observe {mode : MotionMode} (h : Pursues id m)
    (hobserve : m.observe mode = (.ok (), m')) : Pursues id m' := by
  rcases observe_cases hobserve with ⟨-, rfl, -⟩ | ⟨-, -, -, rfl⟩ | ⟨-, -, -, rfl⟩ |
    ⟨_, herr, -⟩
  · exact h
  · exact ⟨h.current, h.outcome_success⟩
  · exact ⟨h.current, h.outcome_success⟩
  · cases herr

theorem Pursues.of_handle {header : Header} {reply : Reply} (h : Pursues id m)
    (hhandle : m.handle header reply = (.ok (), m')) : Pursues id m' := by
  rcases handle_cases hhandle with ⟨-, rfl⟩ | ⟨-, -, -, rfl⟩ | ⟨_, herr, -⟩ | ⟨_, herr, -⟩
  · exact h
  · exact ⟨h.current, .inr rfl⟩
  · cases herr
  · cases herr

theorem Pursues.of_settle (h : Pursues id m) (hsettle : m.settle id = (none, m')) :
    Pursues id m' := by
  unfold settle at hsettle
  rcases h.outcome_success with houtcome | houtcome
  · simp only [houtcome, h.current, if_true] at hsettle
    exact (Prod.mk.inj hsettle).2 ▸ h
  · simp only [houtcome] at hsettle
    cases (Prod.mk.inj hsettle).1

end Motion

namespace Engine

variable {e e' : Engine} {id : UInt32}

theorem status_of_poll {s : State} (h : e.poll = (.ok (some s), e'))
    (hstatus : e.motion.status = .starting) :
    e'.motion.status = .starting ∨ e'.motion.status = .running := by
  obtain ⟨j, outcome, -, -, -, hpolled⟩ := poll_cases h
  generalize hm : e'.motion = m' at hpolled
  cases hpolled with
  | state _ hobserve => exact Motion.status_of_observe hobserve hstatus

theorem kind_of_execute {request : Request} {reply : Reply}
    (h : e.execute request = (.ok (id, reply), e')) : reply.kind = request.kind := by
  obtain ⟨j, -, -, -, hexecuted⟩ := execute_cases h
  cases hexecuted with
  | answered _ hkind => exact hkind

/-- There is a state once a motion has been confirmed. -/
theorem lastState_of_startMotion {controller : ControllerMode} {motion : MotionMode}
    {path goal : Deviation} {id : UInt32}
    (h : e.startMotion controller motion path goal = (.ok id, e')) : e'.lastState ≠ none := by
  by_cases hbusy : e.motion.status ≠ .notStarted ∨ e.motion.current.isSome
  · rw [startMotion, if_pos hbusy] at h
    cases (Prod.mk.inj h).1
  · obtain ⟨hstatus, hcurrent⟩ := not_or.1 hbusy
    rw [startMotion_eq] at h
    rcases hlaunch : e.launch controller motion path goal with ⟨launched, e₁⟩
    obtain ⟨j, hpassage, -, -, hlaunched⟩ := launch_cases hlaunch (not_not.1 hstatus)
      (Option.not_isSome_iff_eq_none.1 hcurrent)
    rw [hlaunch] at h
    generalize hm : e₁.motion = m₁ at hlaunched
    cases hlaunched with
    | refused => cases (Prod.mk.inj h).1
    | accepted _ hawaited =>
        cases hawaited with
        | failed => cases (Prod.mk.inj h).1
        | confirmed _ hrunning =>
            obtain ⟨s, hs, -⟩ := hrunning.resolve_left (by simp [Motion.begin])
            obtain ⟨t, ht, -⟩ := hpassage.lastState_mem (List.ne_nil_of_mem hs)
            rw [← (Prod.mk.inj h).2, ht]
            exact Option.some_ne_none t

/-- Two waits that judge alike as long as `I` holds of the motion end alike. -/
theorem wait_congr {α : Type} {judge judge' : Judge α} {ended : Except SessionError α}
    {I : Motion → Prop} (hjudge : ∀ {m} event, I m → judge' event m = judge event m)
    (hpassed : ∀ {m m' event}, I m → judge event m = (none, m') → I m') (h : I e.motion) :
    e.wait judge' ended = e.wait judge ended := by
  fun_induction wait judge ended e with
  | case1 e err link hr => simp only [wait_eq judge', hr]
  | case2 e incoming link hr err e' ha => simp only [wait_eq judge', hr, ha]
  | case3 e incoming link hr e' ha => simp only [wait_eq judge', hr, ha]
  | case4 e incoming link hr e' ha ih =>
      -- a stale state leaves the motion alone
      obtain ⟨_, hreceives, -⟩ := receives_intake hr ha
      rw [← ih (hreceives.motion ▸ h)]
      simp only [wait_eq judge' _ e, hr, ha]
  | case5 e incoming link hr event e' ha result motion hj =>
      obtain ⟨_, hreceives, -⟩ := receives_intake hr ha
      simp only [wait_eq judge', hr, ha, hjudge event (hreceives.motion ▸ h), hj]
  | case6 e incoming link hr event e' ha motion hj ih =>
      obtain ⟨_, hreceives, -⟩ := receives_intake hr ha
      have he' : I e'.motion := hreceives.motion ▸ h
      rw [← ih (hpassed he' hj)]
      simp only [wait_eq judge' _ e, hr, ha, hjudge event he', hj]

theorem judgeOutcome_pursues {m m' : Motion} {event : Event} (h : m.Pursues id)
    (hjudge : judgeOutcome id event m = (none, m')) : m'.Pursues id := by
  cases event with
  | state s =>
      dsimp only [judgeOutcome] at hjudge
      rcases hobserve : m.observe s.motionMode with ⟨err | _, m₁⟩ <;> rw [hobserve] at hjudge
      · cases (Prod.mk.inj hjudge).1
      · exact (h.of_observe hobserve).of_settle hjudge
  | reply header reply =>
      dsimp only [judgeOutcome] at hjudge
      rcases hhandle : m.handle header reply with ⟨err | _, m₁⟩ <;> rw [hhandle] at hjudge
      · cases (Prod.mk.inj hjudge).1
      · exact (h.of_handle hhandle).of_settle hjudge

/-- An error that ends the motion ends the wait for the rest of the generator as well. -/
theorem drain_pursues {finishing : MotionCommand} {torques : Option Torques}
    (h : e.motion.Pursues id) (hdrain : e.drain finishing torques = (.ok (), e')) :
    e'.motion.Pursues id := by
  fun_induction drain finishing torques e with
  | case1 e _ s e₁ hupdate ih =>
      obtain ⟨-, i, j, -, outcome, lastCommand, -, -, -, -, hcredits, hobserve⟩ :=
        update_ok_cases hupdate
      have hm : Motion.Pursues id { e.motion with outcome, lastCommand } := by
        refine ⟨h.current, ?_⟩
        rcases hcredits with rfl | ⟨rfl, -⟩
        · exact h.outcome_success
        · exact .inr rfl
      exact ih (hm.of_observe hobserve) hdrain
  | case2 e _ e₁ hupdate => cases (Prod.mk.inj hdrain).1
  | case3 e _ err e₁ hupdate => cases (Prod.mk.inj hdrain).1
  | case4 e _ => exact (Prod.mk.inj hdrain).2 ▸ h

end Engine

/-! ### The operations with fallbacks -/

/-- What is done where the engine is prepared for something that does not come. -/
structure Fallbacks where
  /-- The generator that is to be confirmed is neither starting nor running. -/
  unstarted : Engine → Except SessionError Unit × Engine
  /-- The final status of the motion is not success. -/
  unsuccessful : MoveStatus → Motion → Option (Except SessionError Unit) × Motion
  /-- The motion with this id is no longer in progress, and has no final status. -/
  lost : UInt32 → Motion → Option (Except SessionError Unit) × Motion
  /-- There is no state when a motion has been confirmed. -/
  unseen : Engine → Except SessionError (Option State) × Engine
  /-- The reply to the request is of another kind. -/
  foreign : Request → Reply → SessionError

namespace Fallbacks

open Engine

variable (f : Fallbacks)

/-- The error of a request that this reply has not granted; `err` if the reply is of its kind. -/
def rejection (request : Request) (reply : Reply) (err : SessionError) : SessionError :=
  if reply.kind = request.kind then err else f.foreign request reply

def awaitGenerator (e : Engine) : Except SessionError Unit × Engine :=
  match e.motion.status with
  | .running => (.ok (), e)
  | .starting =>
    match _l : e.look with
    | (true, e₁) => (.error (.motion (.unconfirmed e₁.motion.expected)), e₁.resetMotion)
    | (false, e₁) =>
      match _p : e₁.poll with
      | (.ok (some _), e₂) => awaitGenerator e₂
      | (.ok none, e₂) => (.error .closed, e₂.resetMotion)
      | (.error err, e₂) => (.error err, e₂.resetMotion)
  | _ => f.unstarted e
termination_by e.link.pending.length
decreasing_by
  have hlink : e₁.link = e.link := by
    have := congrArg (fun r => r.2.link) _l
    exact this.symm
  rw [← hlink]
  exact poll_length_lt _p

def confirmGenerator (since : Option UInt64) (e : Engine) : Except SessionError Unit × Engine :=
  match e.lastState with
  | some s =>
    if newerThan since s then
      match e.motion.observe s.motionMode with
      | (.error err, m) => (.error err, e.withMotion m)
      | (.ok (), m) => f.awaitGenerator (e.withMotion m)
    else f.awaitGenerator e
  | none => f.awaitGenerator e

def startGenerator (type : MotionType) (e : Engine) : Except SessionError Unit × Engine :=
  if e.motion.status ≠ .notStarted then (.error (.motion .alreadyGenerating), e)
  else
    let since := e.lastId
    match e.execute (.startMotion type) with
    | (.error err, e) => (.error err, e)
    | (.ok (_, .startMotion .success), e) =>
      f.confirmGenerator since (e.withMotion (e.motion.begin type.mode))
    | (.ok (_, reply), e) =>
      (.error (f.rejection (.startMotion type) reply (.motion (.startRejected reply))), e)

def stopGenerator (e : Engine) : Except SessionError Unit × Engine :=
  if e.motion.status ≠ .running then (.error (.motion .notRunning), e)
  else
    let e := e.withMotion (e.motion.exchange .running .stopping)
    match e.execute .stopMotion with
    | (.error err, e) => (.error err, e.withMotion (e.motion.exchange .stopping .running))
    | (.ok (_, .stopMotion .success), e) => (.ok (), e)
    | (.ok (_, reply), e) =>
      (.error (f.rejection .stopMotion reply (.motion (.stopRejected reply))),
        e.withMotion (e.motion.exchange .stopping .running))

def setController (mode : ControllerMode) (e : Engine) : Except SessionError Unit × Engine :=
  let since := e.lastId
  match e.execute (.setController mode) with
  | (.error err, e) => (.error err, e)
  | (.ok (_, .setController .success), e) => e.awaitController mode since
  | (.ok (_, reply), e) =>
    (.error (f.rejection (.setController mode) reply (.motion (.controllerRejected mode reply))), e)

def startMotion (controller : ControllerMode) (motion : MotionMode) (path goal : Deviation)
    (e : Engine) : Except SessionError UInt32 × Engine :=
  if e.motion.status ≠ .notStarted ∨ e.motion.current.isSome then
    (.error (.motion .alreadyMoving), e)
  else
    let since := e.lastId
    let e := e.withMotion { e.motion with outcome := none }
    let request := .move ⟨controller, motion, path, goal⟩
    match e.execute request with
    | (.error err, e) => (.error err, e)
    | (.ok (id, .move .started), e) =>
      let e := e.withMotion ({ e.motion with current := some id }.begin motion)
      match f.confirmGenerator since e with
      | (.error err, e) => (.error err, e.cancelMotion)
      | (.ok (), e) => (.ok id, { e with controllerMode := some controller })
    | (.ok (_, reply), e) =>
      (.error (f.rejection request reply (.motion (.moveRejected reply))), e)

def settle (id : UInt32) (m : Motion) : Option (Except SessionError Unit) × Motion :=
  match m.outcome with
  | some .success => (some (.ok ()), { m with outcome := none, current := none })
  | some status => f.unsuccessful status m
  | none => if m.current = some id then (none, m) else f.lost id m

def judgeOutcome (id : UInt32) : Judge Unit
  | .state s, m =>
    match m.observe s.motionMode with
    | (.error err, m) => (some (.error err), m)
    | (.ok (), m) => f.settle id m
  | .reply header reply, m =>
    match m.handle header reply with
    | (.error err, m) => (some (.error err), m)
    | (.ok (), m) => f.settle id m

def awaitOutcome (id : UInt32) (e : Engine) : Except SessionError Unit × Engine :=
  match f.settle id e.motion with
  | (some result, m) => (result, e.withMotion m)
  | (none, m) => (e.withMotion m).wait (f.judgeOutcome id) (.error .closed)

def finishMotion (id : UInt32) (motion : Option MotionCommand) (torques : Option Torques)
    (e : Engine) : Except SessionError Unit × Engine :=
  if e.motion.current ≠ some id then (.error (.conflict (.notInProgress id)), e)
  else
    let e := e.withMotion (e.motion.exchange .running .stopping)
    let last := motion.getD ((e.lastState.map MotionCommand.hold).getD .neutral)
    match e.drain last.finish torques with
    | (.error err, e) => (.error err, e)
    | (.ok (), e) => f.awaitOutcome id e

def perform (e : Engine) : Call → Except SessionError Unit × Engine
  | .update motion torques => e.perform (.update motion torques)
  | .startGenerator type => f.startGenerator type e
  | .stopGenerator => f.stopGenerator e
  | .setController mode => f.setController mode e
  | .startMotion controller motion path goal =>
    let (result, e) := f.startMotion controller motion path goal e
    (result.map fun _ => (), e)
  | .finishMotion id motion torques => f.finishMotion id motion torques e
  | .cancelMotion => e.perform .cancelMotion

section loops

variable {σ : Type} {credit : σ → Nat} (steering : ControlLoop.Steering credit)

def cycles (motion : UInt32) (s : State) (previous : UInt64) (last : LoopCommand) (e : Engine)
    (m : σ) : Except SessionError Unit × σ × Engine :=
  match _c : steering.call ⟨s, Tick.between previous s.messageId⟩ e m with
  | (.error err, m₁, e₁) => (.error err, m₁, e₁)
  | (.ok .stop, m₁, e₁) =>
    let (result, e₂) := f.finishMotion motion last.motion last.torques e₁
    (result, m₁, e₂)
  | (.ok (.proceed command), m₁, e₁) =>
    match command.validate with
    | .error err => (.error err, m₁, e₁)
    | .ok () =>
      match _u : e₁.update command.motion command.torques with
      | (.ok (some s'), e₂) => cycles motion s' s.messageId command e₂ m₁
      | (.ok none, e₂) => (.error .closed, m₁, e₂)
      | (.error err, e₂) => (.error err, m₁, e₂)
termination_by e.supply + credit m
decreasing_by
  have h₁ := steering.call_supply_le ⟨s, Tick.between previous s.messageId⟩ e m
  have h₂ := Engine.update_supply_lt _u
  rw [_c] at h₁
  simp only at h₁
  omega

def spin (motion : UInt32) (e : Engine) (m : σ) : Except SessionError Unit × σ × Engine :=
  match e.lastState with
  | some s => f.cycles steering motion s s.messageId {} e m
  | none =>
    match f.unseen e with
    | (.ok (some s), e) => f.cycles steering motion s s.messageId {} e m
    | (.ok none, e) => (.error .closed, m, e)
    | (.error err, e) => (.error err, m, e)

def run (controller : ControllerMode) (motion : MotionMode) (e : Engine) (m : σ) :
    Except SessionError Unit × σ × Engine :=
  match e.raisePriority with
  | .error err => (.error err, m, e)
  | .ok () =>
    match f.startMotion controller motion e.settings.path e.settings.goal e with
    | (.error err, e) => (.error err, m, e)
    | (.ok id, e) =>
      match f.spin steering id e m with
      | (.ok (), m, e) => (.ok (), m, e)
      | (.error err, m, e) => (.error err, m, e.cancelMotion)

end loops

/-! ### Where fallbacks are noticed -/

/-- Fallbacks that succeed at once, or else fail with `err`. -/
def succeeding (err : SessionError) : Fallbacks where
  unstarted e := (.ok (), e)
  unsuccessful _ m := (some (.ok ()), m)
  lost _ m := (some (.ok ()), m)
  unseen e := (.error err, e)
  foreign _ _ := err

/-- Fallbacks make a difference wherever they are resorted to. -/
structure Noticed : Prop where
  unstarted : ∀ e : Engine, (∀ f : Fallbacks, f.awaitGenerator e = e.awaitGenerator) →
    e.motion.status = .starting ∨ e.motion.status = .running
  settled : ∀ (id : UInt32) (m : Motion), (∀ f : Fallbacks, f.settle id m = m.settle id) →
    m.outcome = some .success ∨ m.outcome = none ∧ m.current = some id
  unseen : ∀ {σ : Type} {credit : σ → Nat} (steering : ControlLoop.Steering credit) (id : UInt32)
    (e : Engine) (m : σ),
    (∀ f : Fallbacks, f.spin steering id e m = ControlLoop.spin steering id e m) →
    e.lastState ≠ none
  foreign : ∀ (request : Request) (reply : Reply) (err : SessionError),
    (∀ f : Fallbacks, f.rejection request reply err = err) → reply.kind = request.kind

theorem noticed : Noticed where
  unstarted e h := by
    have hsucceeding := h (succeeding .closed)
    rw [awaitGenerator, Engine.awaitGenerator] at hsucceeding
    cases hstatus : e.motion.status with
    | starting => exact .inl rfl
    | running => exact .inr rfl
    | notStarted | stopping =>
        simp only [hstatus] at hsucceeding
        cases (Prod.mk.inj hsucceeding).1
  settled id m h := by
    have hsucceeding := h (succeeding .closed)
    unfold settle Motion.settle at hsucceeding
    rcases houtcome : m.outcome with _ | status
    · by_cases hcurrent : m.current = some id
      · exact .inr ⟨rfl, hcurrent⟩
      · simp only [houtcome, hcurrent, if_false] at hsucceeding
        cases (Prod.mk.inj hsucceeding).1
    · cases status with
      | success => exact .inl rfl
      | _ =>
          simp only [houtcome] at hsucceeding
          cases (Prod.mk.inj hsucceeding).1
  unseen steering id e m h hnone := by
    have hclosed := h (succeeding .closed)
    have hother := h (succeeding (.motion .notRunning))
    rw [← hclosed, spin, spin, hnone] at hother
    cases (Prod.mk.inj hother).1
  foreign request reply err h := by
    by_contra hkind
    have hclosed := h (succeeding .closed)
    have hother := h (succeeding (.motion .notRunning))
    rw [rejection, if_neg hkind] at hclosed hother
    cases hclosed.trans hother.symm

/-! ### The confirmation of a generator -/

variable {f} {e e' : Engine} {id : UInt32}

theorem awaitGenerator_eq (h : e.motion.status = .starting ∨ e.motion.status = .running) :
    f.awaitGenerator e = e.awaitGenerator := by
  -- every state leaves the generator starting or running, so the last case does not arise
  fun_induction f.awaitGenerator e with
  | case1 e hrunning => simp only [Engine.awaitGenerator_eq e, hrunning]
  | case2 e hstarting e₁ hlook => simp only [Engine.awaitGenerator_eq e, hstarting, hlook]
  | case3 e hstarting e₁ hlook s e₂ hpoll ih =>
      rw [ih (status_of_poll hpoll ((look_eq hlook).1 ▸ hstarting)), Engine.awaitGenerator_eq e]
      simp only [hstarting, hlook, hpoll]
  | case4 e hstarting e₁ hlook e₂ hpoll =>
      simp only [Engine.awaitGenerator_eq e, hstarting, hlook, hpoll]
  | case5 e hstarting e₁ hlook err e₂ hpoll =>
      simp only [Engine.awaitGenerator_eq e, hstarting, hlook, hpoll]
  | case6 e hrunning hstarting =>
      rcases h with h | h
      · exact absurd h hstarting
      · exact absurd h hrunning

theorem confirmGenerator_eq (h : e.motion.status = .starting) (since : Option UInt64) :
    f.confirmGenerator since e = e.confirmGenerator since := by
  have hawait : f.awaitGenerator e = e.awaitGenerator := awaitGenerator_eq (.inl h)
  unfold confirmGenerator Engine.confirmGenerator
  cases e.lastState with
  | none => exact hawait
  | some s =>
      by_cases hnew : newerThan since s = true
      · simp only [hnew, if_true]
        rcases hobserve : e.motion.observe s.motionMode with ⟨err | _, m⟩
        · rfl
        · exact awaitGenerator_eq (e := e.withMotion m) (Motion.status_of_observe hobserve h)
      · simp only [hnew]
        exact hawait

/-! ### The replies to requests -/

theorem rejection_eq {request : Request} {reply : Reply}
    (h : e.execute request = (.ok (id, reply), e')) (err : SessionError) :
    f.rejection request reply err = err := if_pos (kind_of_execute h)

theorem startGenerator_eq (type : MotionType) (e : Engine) :
    f.startGenerator type e = e.startGenerator type := by
  unfold startGenerator Engine.startGenerator
  by_cases hstatus : e.motion.status ≠ .notStarted
  · rw [if_pos hstatus, if_pos hstatus]
  · rw [if_neg hstatus, if_neg hstatus]
    rcases hexecute : e.execute (.startMotion type) with ⟨err | ⟨id, reply⟩, e₁⟩
    · rfl
    · by_cases hreply : reply = .startMotion .success
      · subst hreply
        exact confirmGenerator_eq rfl _
      · simp only [rejection_eq hexecute]

theorem stopGenerator_eq (e : Engine) : f.stopGenerator e = e.stopGenerator := by
  unfold stopGenerator Engine.stopGenerator
  by_cases hstatus : e.motion.status ≠ .running
  · rw [if_pos hstatus, if_pos hstatus]
  · rw [if_neg hstatus, if_neg hstatus]
    dsimp only
    rcases hexecute : (e.withMotion (e.motion.exchange .running .stopping)).execute .stopMotion with
      ⟨err | ⟨id, reply⟩, e₁⟩
    · rfl
    · by_cases hreply : reply = .stopMotion .success
      · subst hreply
        rfl
      · simp only [rejection_eq hexecute]

theorem setController_eq (mode : ControllerMode) (e : Engine) :
    f.setController mode e = e.setController mode := by
  unfold setController Engine.setController
  rcases hexecute : e.execute (.setController mode) with ⟨err | ⟨id, reply⟩, e₁⟩
  · rfl
  · by_cases hreply : reply = .setController .success
    · subst hreply
      rfl
    · simp only [rejection_eq hexecute]

theorem startMotion_eq (controller : ControllerMode) (motion : MotionMode) (path goal : Deviation)
    (e : Engine) : f.startMotion controller motion path goal e =
      e.startMotion controller motion path goal := by
  unfold startMotion Engine.startMotion
  by_cases hbusy : e.motion.status ≠ .notStarted ∨ e.motion.current.isSome
  · rw [if_pos hbusy, if_pos hbusy]
  · rw [if_neg hbusy, if_neg hbusy]
    dsimp only
    rcases hexecute : (e.withMotion { e.motion with outcome := none }).execute
      (.move ⟨controller, motion, path, goal⟩) with ⟨err | ⟨id, reply⟩, e₁⟩
    · rfl
    · by_cases hreply : reply = .move .started
      · subst hreply
        dsimp only
        rewrite [confirmGenerator_eq rfl]
        rfl
      · simp only [rejection_eq hexecute]

/-! ### The final status of a motion -/

theorem settle_eq {m : Motion} (h : m.Pursues id) : f.settle id m = m.settle id := by
  unfold settle Motion.settle
  rcases h.outcome_success with houtcome | houtcome
  · simp only [houtcome, h.current, if_true]
  · simp only [houtcome]

theorem judgeOutcome_eq {m : Motion} (h : m.Pursues id) (event : Event) :
    f.judgeOutcome id event m = Engine.judgeOutcome id event m := by
  cases event with
  | state s =>
      dsimp only [judgeOutcome, Engine.judgeOutcome]
      rcases hobserve : m.observe s.motionMode with ⟨err | _, m'⟩
      · rfl
      · exact settle_eq (h.of_observe hobserve)
  | reply header reply =>
      dsimp only [judgeOutcome, Engine.judgeOutcome]
      rcases hhandle : m.handle header reply with ⟨err | _, m'⟩
      · rfl
      · exact settle_eq (h.of_handle hhandle)

theorem awaitOutcome_eq (h : e.motion.Pursues id) : f.awaitOutcome id e = e.awaitOutcome id := by
  unfold awaitOutcome Engine.awaitOutcome
  rw [settle_eq h]
  rcases hsettle : e.motion.settle id with ⟨_ | result, m⟩
  · exact wait_congr (fun event hm => judgeOutcome_eq hm event)
      judgeOutcome_pursues (h.of_settle hsettle)
  · rfl

theorem finishMotion_eq (h : e.motion.outcome = none ∨ e.motion.outcome = some .success)
    (id : UInt32) (motion : Option MotionCommand) (torques : Option Torques) :
    f.finishMotion id motion torques e = e.finishMotion id motion torques := by
  unfold finishMotion Engine.finishMotion
  by_cases hcurrent : e.motion.current ≠ some id
  · rw [if_pos hcurrent, if_pos hcurrent]
  · rw [if_neg hcurrent, if_neg hcurrent]
    dsimp only
    generalize motion.getD _ = last
    rcases hdrain : (e.withMotion (e.motion.exchange .running .stopping)).drain last.finish torques
      with ⟨err | _, e₁⟩
    · rfl
    · have hpursues : (e.motion.exchange .running .stopping).Pursues id :=
        ⟨not_not.1 hcurrent, h⟩
      exact awaitOutcome_eq (drain_pursues (e := e.withMotion _) hpursues hdrain)

theorem perform_eq (h : e.Orderly) (call : Call) : f.perform e call = e.perform call := by
  cases call with
  | update motion torques => rfl
  | startGenerator type => exact startGenerator_eq type e
  | stopGenerator => exact stopGenerator_eq e
  | setController mode => exact setController_eq mode e
  | startMotion controller motion path goal =>
      dsimp only [perform]
      rw [startMotion_eq]
      rfl
  | finishMotion id motion torques => exact finishMotion_eq h.outcome_success id motion torques
  | cancelMotion => rfl

/-! ### Control loops -/

variable {σ : Type} {credit : σ → Nat} (steering : ControlLoop.Steering credit)

theorem cycles_eq (h : e.Orderly) (id : UInt32) (s : State) (previous : UInt64)
    (last : LoopCommand) (m : σ) : f.cycles steering id s previous last e m =
      ControlLoop.cycles steering id s previous last e m := by
  fun_induction f.cycles steering id s previous last e m with
  | case1 s previous last e m err m₁ e₁ hcall => simp only [ControlLoop.cycles_eq, hcall]
  | case2 s previous last e m m₁ e₁ hcall result e₂ hfinish =>
      have h₁ : e₁.Orderly := (Callback.call_reaches hcall).orderly h
      rw [finishMotion_eq h₁.outcome_success] at hfinish
      simp only [ControlLoop.cycles_eq, hcall, hfinish]
  | case3 s previous last e m command m₁ e₁ hcall err hvalid =>
      simp only [ControlLoop.cycles_eq, hcall, hvalid]
  | case4 s previous last e m command m₁ e₁ hcall hvalid s' e₂ hupdate ih =>
      have hreaches := (Callback.call_reaches hcall).trans (Engine.reaches_update hupdate)
      rw [ih (hreaches.orderly h), ControlLoop.cycles_eq id s]
      simp only [hcall, hvalid, hupdate]
  | case5 s previous last e m command m₁ e₁ hcall hvalid e₂ hupdate =>
      simp only [ControlLoop.cycles_eq, hcall, hvalid, hupdate]
  | case6 s previous last e m command m₁ e₁ hcall hvalid err e₂ hupdate =>
      simp only [ControlLoop.cycles_eq, hcall, hvalid, hupdate]

theorem spin_eq (h : e.Orderly) (hstate : e.lastState ≠ none) (id : UInt32) (m : σ) :
    f.spin steering id e m = ControlLoop.spin steering id e m := by
  obtain ⟨s, hs⟩ := Option.ne_none_iff_exists'.1 hstate
  unfold spin ControlLoop.spin
  rewrite [hs]
  exact cycles_eq steering h id s s.messageId {} m

theorem run_eq (h : e.Orderly) (controller : ControllerMode) (motion : MotionMode) (m : σ) :
    f.run steering controller motion e m = ControlLoop.run controller motion steering e m := by
  unfold run ControlLoop.run
  rcases e.raisePriority with err | _
  · rfl
  · dsimp only
    rw [startMotion_eq]
    rcases hstart : e.startMotion controller motion e.settings.path e.settings.goal with
      ⟨err | id, e₁⟩
    · rfl
    · have h₁ : e₁.Orderly := (Engine.reaches_startMotion hstart).orderly h
      dsimp only
      rewrite [spin_eq steering h₁ (lastState_of_startMotion hstart)]
      rfl

end Fallbacks

open Engine in
/-- Fallbacks make a difference wherever they are resorted to.  Yet whatever a client has asked for
and whatever has happened meanwhile, every operation of the engine and every control loop does the
same with any fallbacks as without, so they are never resorted to.  That is as true behind a control
loop, which leaves the engine where turns could have led it. -/
theorem fallbacks_idle (session : Session) (settings : Settings) (clock : Clock)
    (turns : List Turn) :
    let e := (Engine.start session settings clock).after turns
    Fallbacks.Noticed ∧
    (∀ (f : Fallbacks) (call : Call), f.perform e call = e.perform call) ∧
    ∀ {σ : Type} {credit : σ → Nat} (steering : ControlLoop.Steering credit)
      (controller : ControllerMode) (motion : MotionMode) (m : σ),
      (∀ f : Fallbacks, f.run steering controller motion e m =
        ControlLoop.run controller motion steering e m) ∧
      ∃ later, (ControlLoop.run controller motion steering e m).2.2 = e.after later := by
  intro e
  have h : e.Orderly := (orderly_start session settings clock).after turns
  refine ⟨Fallbacks.noticed, fun f call => Fallbacks.perform_eq h call, ?_⟩
  intro σ credit steering controller motion m
  obtain ⟨later, heq⟩ := ControlLoop.run_reaches steering controller motion e m
  exact ⟨fun f => Fallbacks.run_eq steering h controller motion m, later, heq.symm⟩

end ArmControl
