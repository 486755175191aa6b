import ArmControl.Proofs.Exchange

/-! # What endures

A property of the engine is `Enduring` if nothing undoes it that reaches the client while the engine
waits: no state that is observed, no reply that is handled, whether an error of that is raised or
deferred, and nothing that the engine itself notes or gives up on the way.  Whatever the engine
waits for, such a property holds afterwards if it held before.

It may speak of the motion, of the last state and of what has passed over the link. -/

namespace ArmControl

/-- The motion `m` comes of a check whose error is raised or deferred. -/
def Motion.Follows (checked : Except SessionError Unit × Motion) (m : Motion) : Prop :=
  m = checked.2 ∨ m = defer checked

namespace Engine

/-- A property of the engine that holds on, whatever reaches the client. -/
structure Enduring (I : Engine → Prop) : Prop where
  /-- What passes may be no news to the engine, except that it has sent a command. -/
  quiet : ∀ {e e' j lastCommand}, I e → Passage e j e' → j.replies = [] →
    j.accepted e.lastId = [] → e'.motion = { e.motion with lastCommand } → I e'
  state : ∀ {e e' entry s m}, I e → Receives e entry e' → entry.event? = some (.state s) →
    newerThan e.lastId s → Motion.Follows (e.motion.observe s.motionMode) m → I (e'.withMotion m)
  reply : ∀ {e e' entry header reply m}, I e → Receives e entry e' →
    entry.event? = some (.reply header reply) → Motion.Follows (e.motion.handle header reply) m →
    I (e'.withMotion m)
  /-- A reply that is awaited is not handled.  Replies to the start of a generator are left out,
  for they are awaited only while there is none. -/
  answer : ∀ {e e' entry header reply}, I e → Receives e entry e' →
    entry.event? = some (.reply header reply) → reply.kind ≠ .startMotion → I e'
  /-- The last state may be observed again. -/
  recheck : ∀ {e s}, I e → e.lastState = some s →
    I (e.withMotion (e.motion.observe s.motionMode).2)
  reset : ∀ {e}, I e → I e.resetMotion
  raised : ∀ {e}, I e → I (e.withMotion { e.motion with deferred := none })

theorem lastState_of_newer {e e' : Engine} {entry : Entry} {s : State} (h : Receives e entry e')
    (hevent : entry.event? = some (.state s)) (hnew : newerThan e.lastId s) :
    e'.lastState = some s := by
  rw [h.passage.lastState, accepted_of_newer hevent hnew]
  rfl

theorem replies_of_reply {entry : Entry} {header : Header} {reply : Reply}
    (h : entry.event? = some (.reply header reply)) :
    Journal.replies [entry] = [(header, reply)] := by
  simp [Journal.replies, Journal.events, h, Event.reply?]

theorem replies_of_state {entry : Entry} {s : State} (h : entry.event? = some (.state s)) :
    Journal.replies [entry] = [] := by
  simp [Journal.replies, Journal.events, h, Event.reply?]

namespace Enduring

variable {I : Engine → Prop} (hI : Enduring I) {e e' : Engine} {j : Journal}
include hI

/-- What tells nothing at all is no news. -/
theorem of_events_nil (h : I e) (hpassage : Passage e j e') (hevents : j.events = [])
    (hmotion : e'.motion = e.motion) : I e' :=
  hI.quiet h hpassage (by simp [Journal.replies, hevents])
    (Journal.accepted_of_events_nil hevents _) hmotion

theorem look {late : Bool} (h : I e) (hlook : e.look = (late, e')) : I e' :=
  hI.of_events_nil h (look_eq hlook).2 rfl (look_eq hlook).1

theorem wait {α : Type} {judge : Judge α} (ended : Except SessionError α)
    (hjudge : ∀ {e e' entry event}, I e → Receives e entry e' → entry.event? = some event →
      IsNews e.lastId event → I (e'.withMotion (judge event e.motion).2)) (h : I e) :
    I (e.wait judge ended).2 := by
  have hstep {e₁ e₂ : Engine} {entry : Entry} {event : Event} {m : Motion}
      {result : Option (Except SessionError α)} (h₁ : I e₁) (hreceives : Receives e₁ entry e₂)
      (hevent : entry.event? = some event) (hnews : IsNews e₁.lastId event)
      (hj : judge event e₁.motion = (result, m)) : I (e₂.withMotion m) := by
    have := hjudge h₁ hreceives hevent hnews
    rwa [hj] at this
  obtain ⟨-, -, -, hended⟩ := wait_rule judge ended e (I := fun _ e => I e)
    (Q := fun _ _ e => I e)
    (fun h₁ hreceives hevent _ =>
      hI.of_events_nil h₁ hreceives.passage (by simp [Journal.events, hevent]) hreceives.motion)
    (fun h₁ hreceives hevent hstale =>
      hI.quiet h₁ hreceives.passage (replies_of_state hevent) (accepted_of_stale hevent hstale)
        hreceives.motion)
    hstep hstep [] h
  exact hended

theorem poll (h : I e) : I e.poll.2 := by
  refine hI.wait (.ok none) (fun {e e' entry event} h hreceives hevent hnews => ?_) h
  cases event with
  | state s =>
      have := hI.state h hreceives hevent hnews (.inl rfl)
      simp only [judgeState]
      split <;> (rename_i hobserve; rw [hobserve] at this; exact this)
  | reply header reply =>
      have := hI.reply h hreceives hevent (.inl rfl)
      simp only [judgeState]
      split <;> (rename_i hhandle; rw [hhandle] at this; exact this)

/-- A look at the deadline and a wait for a state, as the loops of the engine do them. -/
theorem poll_of_look {late : Bool} {result : Except SessionError (Option State)} {e₁ e₂ : Engine}
    (h : I e) (hlook : e.look = (late, e₁)) (hpoll : e₁.poll = (result, e₂)) : I e₂ := by
  have := hI.poll (hI.look h hlook)
  rwa [hpoll] at this

theorem execute {request : Request} (hkind : request.kind ≠ .startMotion) (h : I e) :
    I (e.execute request).2 := by
  obtain ⟨j, hpassage, -, -, hevents⟩ := passage_send request e
  have hsent := hI.of_events_nil h hpassage hevents rfl
  unfold Engine.execute
  split
  · rename_i hsend
    rwa [hsend] at hsent
  · rename_i id session hsend
    rw [hsend] at hsent
    have hwait : I (awaitReply request.kind id { e with session }).2 := by
      refine hI.wait (.error .closed) (fun {e e' entry event} h hreceives hevent hnews => ?_) hsent
      cases event with
      | state s => exact hI.state h hreceives hevent hnews (.inr rfl)
      | reply header reply =>
          simp only [judgeReply]
          split
          · rename_i hmatch
            refine hreceives.motion ▸ hI.answer h hreceives hevent ?_
            rw [Entry.kind_of_event? hevent, hmatch.1]
            exact hkind
          · exact hI.reply h hreceives hevent (.inr rfl)
    split <;> (rename_i hanswer; rw [hanswer] at hwait; exact hwait)

theorem update (motion : Option MotionCommand) (torques : Option Torques) (h : I e) :
    I (e.update motion torques).2 := by
  rcases hupdate : e.update motion torques with ⟨result, e'⟩
  cases hdeferred : e.motion.deferred with
  | some err =>
      rw [update_of_deferred hdeferred] at hupdate
      obtain ⟨rfl, rfl⟩ := Prod.mk.inj hupdate
      exact hI.raised h
  | none =>
      rcases update_cases hdeferred hupdate with ⟨_, -, hmotion, hpassage, -⟩ | ⟨j, e₁, hsends, hpoll⟩
      · exact hI.of_events_nil h hpassage rfl hmotion
      · obtain ⟨lastCommand, hmotion⟩ := hsends.motion_eq
        have hsent : I e₁ := hI.quiet h hsends.passage (by simp [Journal.replies, hsends.quiet.2])
          (Journal.accepted_of_events_nil hsends.quiet.2 _) hmotion
        have := hI.poll hsent
        rwa [hpoll] at this

/-! ### Confirmations -/

theorem awaitGenerator (h : I e) : I e.awaitGenerator.2 := by
  fun_induction Engine.awaitGenerator e with
  | case1 e hstatus => exact h
  | case2 e hstatus e₁ hlook => exact hI.reset (hI.look h hlook)
  | case3 e hstatus e₁ hlook s e₂ hpoll ih => exact ih (hI.poll_of_look h hlook hpoll)
  | case4 e hstatus e₁ hlook e₂ hpoll => exact hI.reset (hI.poll_of_look h hlook hpoll)
  | case5 e hstatus e₁ hlook err e₂ hpoll => exact hI.reset (hI.poll_of_look h hlook hpoll)
  | case6 e hrunning hstarting => exact hI.raised h

theorem confirmGenerator (since : Option UInt64) (h : I e) : I (e.confirmGenerator since).2 := by
  unfold Engine.confirmGenerator
  split
  · rename_i s hs
    have := hI.recheck h hs
    split
    · split <;> (rename_i hobserve; rw [hobserve] at this)
      · exact this
      · exact hI.awaitGenerator this
    · exact hI.awaitGenerator h
  · exact hI.awaitGenerator h

theorem awaitController (mode : ControllerMode) (since : Option UInt64) (h : I e) :
    I (e.awaitController mode since).2 := by
  fun_induction Engine.awaitController mode since e with
  | case1 e hconfirms =>
      exact hI.of_events_nil h ((Passage.refl e).setController _) rfl rfl
  | case2 e hconfirms e₁ hlook => exact hI.look h hlook
  | case3 e hconfirms e₁ hlook s e₂ hpoll ih => exact ih (hI.poll_of_look h hlook hpoll)
  | case4 e hconfirms e₁ hlook e₂ hpoll => exact hI.poll_of_look h hlook hpoll
  | case5 e hconfirms e₁ hlook err e₂ hpoll => exact hI.poll_of_look h hlook hpoll

theorem setController (mode : ControllerMode) (h : I e) : I (e.setController mode).2 := by
  have hkind : (Request.setController mode).kind ≠ .startMotion := by simp [Request.kind]
  have := hI.execute hkind h
  unfold Engine.setController
  simp only
  split <;> (rename_i hexecute; rw [hexecute] at this)
  · exact this
  · exact hI.awaitController mode _ this
  · exact this

/-! ### The end of a motion -/

theorem drain (finishing : MotionCommand) (torques : Option Torques) (h : I e) :
    I (e.drain finishing torques).2 := by
  fun_induction Engine.drain finishing torques e with
  | case1 e hstopping s e₁ hupdate ih =>
      have := hI.update (some finishing) torques h
      rw [hupdate] at this
      exact ih this
  | case2 e hstopping e₁ hupdate =>
      have := hI.update (some finishing) torques h
      rwa [hupdate] at this
  | case3 e hstopping err e₁ hupdate =>
      have := hI.update (some finishing) torques h
      rwa [hupdate] at this
  | case4 e hstopping => exact h

/-- A property that also outlasts the settling of a motion. -/
theorem awaitOutcome (hsettle : ∀ {e} id, I e → I (e.withMotion (e.motion.settle id).2))
    (id : UInt32) (h : I e) : I (e.awaitOutcome id).2 := by
  have hwait {e : Engine} (h : I e) : I (e.wait (judgeOutcome id) (.error .closed)).2 := by
    refine hI.wait _ (fun {e e' entry event} h hreceives hevent hnews => ?_) h
    cases event with
    | state s =>
        have := hI.state h hreceives hevent hnews (.inl rfl)
        simp only [judgeOutcome]
        split <;> (rename_i hobserve; rw [hobserve] at this)
        · exact this
        · exact hsettle id this
    | reply header reply =>
        have := hI.reply h hreceives hevent (.inl rfl)
        simp only [judgeOutcome]
        split <;> (rename_i hhandle; rw [hhandle] at this)
        · exact this
        · exact hsettle id this
  have hsettled := hsettle id h
  unfold Engine.awaitOutcome
  split <;> (rename_i heq; rw [heq] at hsettled)
  · exact hsettled
  · exact hwait hsettled

end Enduring

end Engine
end ArmControl
