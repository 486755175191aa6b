import ArmControl.Proofs.Finish
import ArmControl.Proofs.History
import ArmControl.Proofs.Moments

/-! # Paths

A `Path` leads from one engine to another by single acts, with the moments of the messages that were
taken on the way.  Whatever a call does is a path with just the moments of the call (`path_perform`),
and so is a session (`path_after`).  Hence what the acts and the receipts of messages keep is kept by
all that is done. -/

namespace ArmControl.Engine

/-- One act of an engine that takes no message. -/
inductive Act : Engine → Engine → Prop
  | motion {e} (m) : Act e (e.withMotion m)
  | look {e} : Act e e.look.2
  | controller {e} (mode) : Act e { e with controllerMode := mode }
  | send {e} (request) : Act e { e with session := (e.session.send request).2 }
  | command {e} (motion torques) : Act e (e.sendCommand motion torques).2
  | happen {e} (happenings) : Act e (e.witness happenings)

/-- Single acts lead from `e` to `e'`, and the messages on the way were taken at the moments `ms`. -/
inductive Path : Engine → List Moment → Engine → Prop
  | refl (e) : Path e [] e
  | act {e e₁ e' ms} : Act e e₁ → Path e₁ ms e' → Path e ms e'
  | take {e e' ms} (awaited) : Path e.received ms e' → Path e (⟨e, awaited⟩ :: ms) e'

variable {e e₁ e' : Engine} {a b ms : List Moment}

namespace Path

theorem of_act (h : Act e e') : Path e [] e' := .act h (.refl e')

theorem trans (h₁ : Path e a e₁) (h₂ : Path e₁ b e') : Path e (a ++ b) e' := by
  induction h₁ with
  | refl => exact h₂
  | act hact _ ih => exact .act hact (ih h₂)
  | take awaited _ ih => exact .take awaited (ih h₂)

theorem concat (h₁ : Path e ms e₁) (h₂ : Act e₁ e') : Path e ms e' := by
  have h := h₁.trans (.of_act h₂)
  rwa [List.append_nil] at h

end Path

/-! ### What an engine does is a path -/

namespace Moments

theorem wait_eq {α : Type} (awaited : Option (FrameKind × UInt32)) (judge : Judge α) (e : Engine) :
    wait awaited judge e = ⟨e, awaited⟩ ::
      match e.passes judge with
      | some e' => wait awaited judge e'
      | none => [] := by
  rw [wait]
  generalize e.passes judge = passed
  cases passed <;> rfl

theorem awaitGenerator_eq (e : Engine) : awaitGenerator e =
    if e.motion.status = .starting ∧ e.look.1 = false then
      poll e.look.2 ++
        match e.look.2.poll with
        | (.ok (some _), e') => awaitGenerator e'
        | _ => []
    else [] := by
  rw [awaitGenerator]
  generalize e.look.2.poll = polled
  rcases polled with ⟨err | _ | s, e'⟩ <;> rfl

theorem awaitController_eq (mode : ControllerMode) (since : Option UInt64) (e : Engine) :
    awaitController mode since e =
    if e.confirmsController mode since = false ∧ e.look.1 = false then
      poll e.look.2 ++
        match e.look.2.poll with
        | (.ok (some _), e') => awaitController mode since e'
        | _ => []
    else [] := by
  rw [awaitController]
  generalize e.look.2.poll = polled
  rcases polled with ⟨err | _ | s, e'⟩ <;> rfl

theorem drain_eq (finishing : MotionCommand) (torques : Option Torques) (e : Engine) :
    drain finishing torques e =
    if e.motion.status = .stopping then
      update (some finishing) torques e ++
        match e.update (some finishing) torques with
        | (.ok (some _), e') => drain finishing torques e'
        | _ => []
    else [] := by
  rw [drain]
  generalize e.update (some finishing) torques = updated
  rcases updated with ⟨err | _ | s, e'⟩ <;> rfl

end Moments

theorem path_wait {α : Type} (awaited : Option (FrameKind × UInt32)) (judge : Judge α)
    (ended : Except SessionError α) (e : Engine) :
    Path e (Moments.wait awaited judge e) (e.wait judge ended).2 := by
  induction hn : e.link.pending.length using Nat.strongRecOn generalizing e with
  | ind n ih =>
      rw [Moments.wait_eq]
      refine .take awaited ?_
      cases hpasses : e.passes judge with
      | some e₁ =>
          have hrest := ih _ (hn ▸ passes_length_lt hpasses) e₁ rfl
          obtain ⟨m, rfl⟩ := passes_eq hpasses
          rw [wait_of_passes hpasses]
          exact .act (.motion m) hrest
      | none =>
          obtain ⟨m, hm⟩ := wait_of_decided ended hpasses
          rw [hm]
          exact .of_act (.motion m)

theorem path_poll (e : Engine) : Path e (Moments.poll e) e.poll.2 := path_wait none _ _ e

theorem path_execute (request : Request) (e : Engine) :
    Path e (Moments.execute request e) (e.execute request).2 := by
  have hsend : Path e [] { e with session := (e.session.send request).2 } :=
    .of_act (.send request)
  unfold Moments.execute Engine.execute awaitReply
  rcases hs : e.session.send request with ⟨err | id, session⟩ <;> rw [hs] at hsend <;> simp only
  · exact hsend
  · have hwait := path_wait (some (request.kind, id)) (judgeReply request.kind id)
      (.error .closed) { e with session }
    split <;> (rename_i hw; rw [hw] at hwait; exact hsend.trans hwait)

theorem path_update (motion : Option MotionCommand) (torques : Option Torques) (e : Engine) :
    Path e (Moments.update motion torques e) (e.update motion torques).2 := by
  cases hdeferred : e.motion.deferred with
  | some err =>
      simp only [Moments.update, Engine.update, hdeferred]
      exact .of_act (.motion _)
  | none =>
      simp only [Moments.update, Engine.update, hdeferred]
      split
      · have hsend : Path e [] (e.sendCommand motion torques).2 :=
          .of_act (.command motion torques)
        rcases hs : e.sendCommand motion torques with ⟨err | _, e₁⟩ <;> rw [hs] at hsend <;>
          simp only
        · exact hsend
        · exact hsend.trans (path_poll e₁)
      · exact path_poll e

theorem path_look {late : Bool} (h : e.look = (late, e')) : Path e [] e' := by
  obtain rfl : e.look.2 = e' := congrArg Prod.snd h
  exact .of_act .look

theorem path_awaitGenerator (e : Engine) :
    Path e (Moments.awaitGenerator e) e.awaitGenerator.2 := by
  fun_induction Engine.awaitGenerator e with
  | case1 e hstatus =>
      rw [Moments.awaitGenerator_eq]
      simpa [hstatus] using Path.refl e
  | case2 e hstatus e₁ hlook =>
      rw [Moments.awaitGenerator_eq]
      simp only [hlook, hstatus, true_and, Bool.true_eq_false, if_false]
      exact (path_look hlook).concat (.motion _)
  | case3 e hstatus e₁ hlook s e₂ hpoll ih =>
      have hpath := path_poll e₁
      rw [hpoll] at hpath
      rw [Moments.awaitGenerator_eq]
      simp only [hlook, hstatus, true_and, if_true, hpoll]
      exact ((path_look hlook).trans hpath).trans ih
  | case4 e hstatus e₁ hlook e₂ hpoll | case5 e hstatus e₁ hlook err e₂ hpoll =>
      have hpath := path_poll e₁
      rw [hpoll] at hpath
      rw [Moments.awaitGenerator_eq]
      simp only [hlook, hstatus, true_and, if_true, hpoll, List.append_nil]
      exact ((path_look hlook).trans hpath).concat (.motion _)
  | case6 e hrunning hstarting =>
      have hother : ¬ (e.motion.status = .starting ∧ e.look.1 = false) := fun h => hstarting h.1
      rw [Moments.awaitGenerator_eq, if_neg hother]
      exact .of_act (.motion _)

theorem path_confirmGenerator (since : Option UInt64) (e : Engine) :
    Path e (Moments.confirmGenerator since e) (e.confirmGenerator since).2 := by
  cases hs : e.lastState with
  | none =>
      simp only [Moments.confirmGenerator, Engine.confirmGenerator, hs]
      exact path_awaitGenerator e
  | some s =>
      simp only [Moments.confirmGenerator, Engine.confirmGenerator, hs]
      split
      · rcases e.motion.observe s.motionMode with ⟨err | _, m⟩
        · exact .of_act (.motion m)
        · exact .act (.motion m) (path_awaitGenerator _)
      · exact path_awaitGenerator e

theorem path_startGenerator (type : MotionType) (e : Engine) :
    Path e (Moments.startGenerator type e) (e.startGenerator type).2 := by
  unfold Moments.startGenerator Engine.startGenerator
  split
  · exact .refl e
  · have hpath := path_execute (.startMotion type) e
    rcases hexecute : e.execute (.startMotion type) with ⟨err | ⟨id, reply⟩, e₁⟩ <;>
      rw [hexecute] at hpath <;> simp only
    · simpa using hpath
    · by_cases hreply : reply = .startMotion .success
      · subst hreply
        exact hpath.trans (.act (.motion _) (path_confirmGenerator _ _))
      · simpa [hreply] using hpath

theorem path_stopGenerator (e : Engine) :
    Path e (Moments.stopGenerator e) e.stopGenerator.2 := by
  unfold Moments.stopGenerator Engine.stopGenerator
  split
  · exact .refl e
  · have hpath := path_execute .stopMotion (e.withMotion (e.motion.exchange .running .stopping))
    replace hpath := Path.act (.motion _) hpath
    rcases hexecute : Engine.execute .stopMotion
      (e.withMotion (e.motion.exchange .running .stopping)) with ⟨err | ⟨id, reply⟩, e₁⟩ <;>
      rw [hexecute] at hpath <;> simp only [hexecute]
    · exact hpath.concat (.motion _)
    · by_cases hreply : reply = .stopMotion .success
      · subst hreply
        exact hpath
      · simpa [hreply] using hpath.concat (.motion _)

theorem path_awaitController (mode : ControllerMode) (since : Option UInt64) (e : Engine) :
    Path e (Moments.awaitController mode since e) (e.awaitController mode since).2 := by
  fun_induction Engine.awaitController mode since e with
  | case1 e hconfirms =>
      rw [Moments.awaitController_eq]
      simp only [hconfirms, Bool.true_eq_false, false_and, if_false]
      exact .of_act (.controller _)
  | case2 e hconfirms e₁ hlook =>
      rw [Moments.awaitController_eq]
      simp only [hlook, Bool.true_eq_false, and_false, if_false]
      exact path_look hlook
  | case3 e hconfirms e₁ hlook s e₂ hpoll ih =>
      have hpath := path_poll e₁
      rw [hpoll] at hpath
      rw [Moments.awaitController_eq]
      simp only [hlook, hconfirms, and_self, if_true, hpoll]
      exact ((path_look hlook).trans hpath).trans ih
  | case4 e hconfirms e₁ hlook e₂ hpoll | case5 e hconfirms e₁ hlook err e₂ hpoll =>
      have hpath := path_poll e₁
      rw [hpoll] at hpath
      rw [Moments.awaitController_eq]
      simp only [hlook, hconfirms, and_self, if_true, hpoll, List.append_nil]
      exact (path_look hlook).trans hpath

theorem path_setController (mode : ControllerMode) (e : Engine) :
    Path e (Moments.setController mode e) (e.setController mode).2 := by
  have hpath := path_execute (.setController mode) e
  unfold Moments.setController Engine.setController
  rcases hexecute : e.execute (.setController mode) with ⟨err | ⟨id, reply⟩, e₁⟩ <;>
    rw [hexecute] at hpath <;> simp only
  · simpa using hpath
  · by_cases hreply : reply = .setController .success
    · subst hreply
      exact hpath.trans (path_awaitController _ _ _)
    · simpa [hreply] using hpath

theorem path_cancelMotion (e : Engine) : Path e (Moments.cancelMotion e) e.cancelMotion :=
  (path_execute .stopMove e).concat (.motion _)

variable {controller : ControllerMode} {motion : MotionMode} {path goal : Deviation}

theorem path_launch (controller : ControllerMode) (motion : MotionMode) (path goal : Deviation)
    (e : Engine) : Path e (Moments.launch controller motion path goal e)
      (e.launch controller motion path goal).2 := by
  unfold Moments.launch Engine.launch
  split
  · exact .refl e
  · have hpath := path_execute (.move ⟨controller, motion, path, goal⟩)
      (e.withMotion { e.motion with outcome := none })
    replace hpath := Path.act (.motion _) hpath
    rcases hexecute : Engine.execute (.move ⟨controller, motion, path, goal⟩)
      (e.withMotion { e.motion with outcome := none }) with ⟨err | ⟨id, reply⟩, e₁⟩ <;>
      rw [hexecute] at hpath <;> simp only [hexecute]
    · simpa using hpath
    · by_cases hreply : reply = .move .started
      · subst hreply
        have hconfirm := path_confirmGenerator e.lastId
          (e₁.withMotion ({ e₁.motion with current := some id }.begin motion))
        replace hconfirm := hpath.trans (.act (.motion _) hconfirm)
        rcases hconfirmed : Engine.confirmGenerator e.lastId
          (e₁.withMotion ({ e₁.motion with current := some id }.begin motion)) with
          ⟨err | _, e₂⟩ <;> rw [hconfirmed] at hconfirm <;> simp only [hconfirmed]
        · exact hconfirm
        · exact hconfirm.concat (.controller _)
      · simpa [hreply] using hpath

theorem path_startMotion (controller : ControllerMode) (motion : MotionMode)
    (path goal : Deviation) (e : Engine) :
    Path e (Moments.startMotion controller motion path goal e)
      (e.startMotion controller motion path goal).2 := by
  have hpath := path_launch controller motion path goal e
  rw [startMotion_eq, Moments.startMotion]
  rcases hlaunch : e.launch controller motion path goal with ⟨err | ⟨id, err | _⟩, e₁⟩ <;>
    rw [hlaunch] at hpath <;> simp only
  · simpa using hpath
  · exact hpath.trans (path_cancelMotion e₁)
  · simpa using hpath

theorem path_drain (finishing : MotionCommand) (torques : Option Torques) (e : Engine) :
    Path e (Moments.drain finishing torques e) (e.drain finishing torques).2 := by
  fun_induction Engine.drain finishing torques e with
  | case1 e hstopping s e₁ hupdate ih =>
      have hpath := path_update (some finishing) torques e
      rw [hupdate] at hpath
      rw [Moments.drain_eq]
      simp only [hstopping, if_true, hupdate]
      exact hpath.trans ih
  | case2 e hstopping e₁ hupdate | case3 e hstopping err e₁ hupdate =>
      have hpath := path_update (some finishing) torques e
      rw [hupdate] at hpath
      rw [Moments.drain_eq]
      simp only [hstopping, if_true, hupdate, List.append_nil]
      exact hpath
  | case4 e hstopping =>
      rw [Moments.drain_eq, if_neg hstopping]
      exact .refl e

theorem path_awaitOutcome (id : UInt32) (e : Engine) :
    Path e (Moments.awaitOutcome id e) (e.awaitOutcome id).2 := by
  unfold Moments.awaitOutcome Engine.awaitOutcome
  rcases e.motion.settle id with ⟨_ | result, m⟩
  · exact .act (.motion m) (path_wait none _ _ _)
  · exact .of_act (.motion m)

theorem path_finishMotion (id : UInt32) (motion : Option MotionCommand) (torques : Option Torques)
    (e : Engine) : Path e (Moments.finishMotion id motion torques e)
      (e.finishMotion id motion torques).2 := by
  unfold Moments.finishMotion Engine.finishMotion
  split
  · exact .refl e
  · simp only
    generalize motion.getD _ = last
    have hpath := path_drain last.finish torques
      (e.withMotion (e.motion.exchange .running .stopping))
    replace hpath := Path.act (.motion _) hpath
    rcases hdrain : Engine.drain last.finish torques
      (e.withMotion (e.motion.exchange .running .stopping)) with ⟨err | _, e₁⟩ <;>
      rw [hdrain] at hpath <;> simp only
    · simpa using hpath
    · exact hpath.trans (path_awaitOutcome id e₁)

/-! ### Sessions -/

/-- The moments of a call. -/
def Moments.perform : Call → Engine → List Moment
  | .update motion torques => update motion torques
  | .startGenerator type => startGenerator type
  | .stopGenerator => stopGenerator
  | .setController mode => setController mode
  | .startMotion controller motion path goal => startMotion controller motion path goal
  | .finishMotion id motion torques => finishMotion id motion torques
  | .cancelMotion => cancelMotion

/-- The moments of a turn. -/
def Moments.turn : Turn → Engine → List Moment
  | .call call => perform call
  | .happen _ => fun _ => []

/-- The moments of some turns. -/
def Moments.after (turns : List Turn) (e : Engine) : List Moment :=
  match turns with
  | [] => []
  | t :: rest => turn t e ++ after rest (e.turn t)

theorem path_perform (call : Call) (e : Engine) :
    Path e (Moments.perform call e) (e.perform call).2 := by
  cases call with
  | update motion torques => exact path_update motion torques e
  | startGenerator type => exact path_startGenerator type e
  | stopGenerator => exact path_stopGenerator e
  | setController mode => exact path_setController mode e
  | startMotion controller motion path goal => exact path_startMotion controller motion path goal e
  | finishMotion id motion torques => exact path_finishMotion id motion torques e
  | cancelMotion => exact path_cancelMotion e

theorem path_turn (t : Turn) (e : Engine) : Path e (Moments.turn t e) (e.turn t) := by
  cases t with
  | call call => exact path_perform call e
  | happen happenings => exact .of_act (.happen happenings)

theorem path_after (turns : List Turn) (e : Engine) :
    Path e (Moments.after turns e) (e.after turns) := by
  induction turns generalizing e with
  | nil => exact .refl e
  | cons t rest ih => exact (path_turn t e).trans (ih (e.turn t))

end ArmControl.Engine
