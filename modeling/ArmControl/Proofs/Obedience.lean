import ArmControl.Proofs.Procedure

/-! # What an engine obeys

A relation may hold between an engine, what has passed over its link, and the engine afterwards.  A
procedure obeys such a relation if it holds whenever the procedure is carried out.  Of relations
that compose (`Composes`) it is enough that the smallest procedures obey them: then so does all that
is made of these.  Few of them are needed for what only asks something of the arm (`Calm`), more for
what decides about a generator or a motion (`Passive`), and all when commands are sent (`Active`). -/

namespace ArmControl

open Engine

/-- What holds of one thing done, and of another after it, holds of both. -/
class Composes (R : Engine → Journal → Engine → Prop) : Prop where
  refl : ∀ e, R e [] e
  trans : ∀ {e e₁ e' i j}, R e i e₁ → R e₁ j e' → R e (i ++ j) e'

namespace Procedure

variable {α β γ : Type} {R S : Engine → Journal → Engine → Prop} {P : Procedure α}
  {K : α → Procedure β}

/-- Whatever the engine is that carries out the procedure, `R` holds between it and the engine
after that. -/
def Obeys (R : Engine → Journal → Engine → Prop) (P : Procedure α) : Prop :=
  ∀ e, ∃ j, R e j (P.run e).2

theorem Obeys.mono (h : Obeys R P) (hsub : ∀ {e j e'}, R e j e' → S e j e') : Obeys S P := by
  intro e
  obtain ⟨j, hR⟩ := h e
  exact ⟨j, hsub hR⟩

section

variable [Composes R]

theorem obeys_pure (a : α) : Obeys R (pure a) := fun e => ⟨[], Composes.refl e⟩

theorem obeys_see (v : Engine → γ) : Obeys R (see v) := fun e => ⟨[], Composes.refl e⟩

theorem Obeys.next (h : Obeys R P) {e e₁ e' : Engine} {a : α} (hrun : P.run e = (a, e₁))
    (hrest : ∃ j, R e₁ j e') : ∃ j, R e j e' := by
  obtain ⟨i, hfirst⟩ := h e
  obtain ⟨j, hrest⟩ := hrest
  rw [hrun] at hfirst
  exact ⟨i ++ j, Composes.trans hfirst hrest⟩

theorem Obeys.bind (h : Obeys R P) (hK : ∀ a, Obeys R (K a)) : Obeys R (P >>= K) :=
  fun _ => h.next rfl (hK _ _)

theorem obeys_execute {request : Request} (htransmit : Obeys R (transmit request))
    (hreply : ∀ id, Obeys R (wait (some (request.kind, id)) (judgeReply request.kind id)
      (.error .closed))) : Obeys R (execute request) := by
  rw [execute_eq]
  refine htransmit.bind fun sent => ?_
  cases sent with
  | error err => exact obeys_pure _
  | ok id =>
      refine (hreply id).bind fun answer => ?_
      cases answer <;> exact obeys_pure _

end

/-! ### Requests -/

/-- The relation is obeyed by what is done to ask something of the arm and wait for the answer.
Replies to the start of a motion are left out, for they are awaited only while there is none. -/
structure Calm (R : Engine → Journal → Engine → Prop) : Prop where
  halt : Obeys R (modify (Motion.exchange .running .stopping))
  resume : Obeys R (modify (Motion.exchange .stopping .running))
  confirm : ∀ mode, Obeys R (confirm mode)
  look : Obeys R look
  transmit : ∀ request, Obeys R (transmit request)
  state : Obeys R poll
  reply : ∀ kind id, kind ≠ .move →
    Obeys R (wait (some (kind, id)) (judgeReply kind id) (.error .closed))

namespace Calm

variable [Composes R] (hR : Calm R)
include hR

theorem execute {request : Request} (hkind : request.kind ≠ .move) : Obeys R (execute request) :=
  obeys_execute (hR.transmit request) fun id => hR.reply request.kind id hkind

theorem stopGenerator : Obeys R stopGenerator := by
  rw [stopGenerator_eq]
  refine (obeys_see _).bind fun status => ?_
  split
  · exact obeys_pure _
  · refine hR.halt.bind fun _ => (hR.execute (by simp [Request.kind])).bind fun result => ?_
    split
    · exact hR.resume.bind fun _ => obeys_pure _
    · exact obeys_pure _
    · exact hR.resume.bind fun _ => obeys_pure _

theorem awaitController (mode : ControllerMode) (since : Option UInt64) :
    Obeys R (awaitController mode since) := by
  intro e
  change ∃ j, R e j (e.awaitController mode since).2
  fun_induction Engine.awaitController mode since e with
  | case1 e hconfirms => exact hR.confirm mode e
  | case2 e hconfirms e₁ hlook => exact hR.look.next hlook ⟨[], Composes.refl e₁⟩
  | case3 e hconfirms e₁ hlook s e₂ hpoll ih => exact hR.look.next hlook (hR.state.next hpoll ih)
  | case4 e hconfirms e₁ hlook e₂ hpoll =>
      exact hR.look.next hlook (hR.state.next hpoll ⟨[], Composes.refl e₂⟩)
  | case5 e hconfirms e₁ hlook err e₂ hpoll =>
      exact hR.look.next hlook (hR.state.next hpoll ⟨[], Composes.refl e₂⟩)

theorem setController (mode : ControllerMode) : Obeys R (setController mode) := by
  rw [setController_eq]
  refine (obeys_see _).bind fun since => (hR.execute (by simp [Request.kind])).bind fun result => ?_
  split
  · exact obeys_pure _
  · exact hR.awaitController mode since
  · exact obeys_pure _

end Calm

/-! ### Without commands -/

/-- The relation is obeyed by all the small procedures that send no command and start nothing. -/
structure Passive (R : Engine → Journal → Engine → Prop) : Prop extends Calm R where
  observe : ∀ mode, Obeys R (check (Motion.observe mode))
  settle : ∀ id, Obeys R (check (Motion.settle id))
  reset : Obeys R (modify Motion.reset)
  clear : Obeys R (modify Motion.clear)
  raised : Obeys R (modify fun m => { m with deferred := none })
  outcome : ∀ id, Obeys R (wait none (judgeOutcome id) (.error .closed))

namespace Passive

theorem mono (hR : Passive R) (hsub : ∀ {e j e'}, R e j e' → S e j e') : Passive S where
  observe mode := (hR.observe mode).mono hsub
  settle id := (hR.settle id).mono hsub
  reset := hR.reset.mono hsub
  clear := hR.clear.mono hsub
  raised := hR.raised.mono hsub
  halt := hR.halt.mono hsub
  resume := hR.resume.mono hsub
  confirm mode := (hR.confirm mode).mono hsub
  look := hR.look.mono hsub
  transmit request := (hR.transmit request).mono hsub
  state := hR.state.mono hsub
  reply kind id hkind := (hR.reply kind id hkind).mono hsub
  outcome id := (hR.outcome id).mono hsub

variable [Composes R] (hR : Passive R)
include hR

theorem awaitGenerator : Obeys R awaitGenerator := by
  intro e
  change ∃ j, R e j e.awaitGenerator.2
  fun_induction Engine.awaitGenerator e with
  | case1 e hstatus => exact ⟨[], Composes.refl e⟩
  | case2 e hstatus e₁ hlook => exact hR.look.next hlook (hR.reset e₁)
  | case3 e hstatus e₁ hlook s e₂ hpoll ih => exact hR.look.next hlook (hR.state.next hpoll ih)
  | case4 e hstatus e₁ hlook e₂ hpoll =>
      exact hR.look.next hlook (hR.state.next hpoll (hR.reset e₂))
  | case5 e hstatus e₁ hlook err e₂ hpoll =>
      exact hR.look.next hlook (hR.state.next hpoll (hR.reset e₂))
  | case6 e hrunning hstarting => exact hR.raised e

theorem confirmGenerator (since : Option UInt64) : Obeys R (confirmGenerator since) := by
  rw [confirmGenerator_eq]
  refine (obeys_see _).bind fun last => ?_
  cases last with
  | none => exact hR.awaitGenerator
  | some s =>
      simp only
      split
      · refine (hR.observe s.motionMode).bind fun checked => ?_
        rcases checked with err | ⟨⟩
        · exact obeys_pure _
        · exact hR.awaitGenerator
      · exact hR.awaitGenerator

/-- A relation that is obeyed when a start is accepted. -/
theorem startGenerator {type : MotionType} (hbegin : Obeys R (modify (Motion.begin type.mode))) :
    Obeys R (startGenerator type) := by
  rw [startGenerator_eq]
  refine (obeys_see _).bind fun status => ?_
  split
  · exact obeys_pure _
  · refine (obeys_see _).bind fun since => (hR.execute (by simp [Request.kind])).bind
      fun result => ?_
    split
    · exact obeys_pure _
    · exact hbegin.bind fun _ => hR.confirmGenerator since
    · exact obeys_pure _

theorem cancelMotion : Obeys R cancelMotion := by
  rw [cancelMotion_eq]
  exact (hR.execute (by simp [Request.kind])).bind fun _ => hR.clear

theorem awaitOutcome (id : UInt32) : Obeys R (awaitOutcome id) := by
  rw [awaitOutcome_eq]
  refine (hR.settle id).bind fun settled => ?_
  cases settled with
  | none => exact hR.outcome id
  | some result => exact obeys_pure _

end Passive

/-! ### With commands -/

/-- The relation is obeyed when a command is sent, too. -/
structure Active (R : Engine → Journal → Engine → Prop) : Prop extends Passive R where
  command : ∀ motion torques, Obeys R (command motion torques)

namespace Active

variable [Composes R] (hR : Active R)
include hR

theorem update (motion : Option MotionCommand) (torques : Option Torques) :
    Obeys R (update motion torques) := by
  rw [update_eq]
  refine (obeys_see _).bind fun m => ?_
  cases m.deferred with
  | some err => exact hR.raised.bind fun _ => obeys_pure _
  | none =>
      simp only
      split
      · refine (hR.command motion torques).bind fun sent => ?_
        cases sent with
        | error err => exact obeys_pure _
        | ok _ => exact hR.state
      · exact hR.state

theorem drain (finishing : MotionCommand) (torques : Option Torques) :
    Obeys R (drain finishing torques) := by
  have hupdate := hR.update (some finishing) torques
  intro e
  change ∃ j, R e j (e.drain finishing torques).2
  fun_induction Engine.drain finishing torques e with
  | case1 e hstopping s e₁ hrun ih => exact hupdate.next hrun ih
  | case2 e hstopping e₁ hrun => exact hupdate.next hrun ⟨[], Composes.refl e₁⟩
  | case3 e hstopping err e₁ hrun => exact hupdate.next hrun ⟨[], Composes.refl e₁⟩
  | case4 e hrest => exact ⟨[], Composes.refl e⟩

theorem finishMotion (id : UInt32) (motion : Option MotionCommand) (torques : Option Torques) :
    Obeys R (finishMotion id motion torques) := by
  rw [finishMotion_eq]
  refine (obeys_see _).bind fun current => ?_
  split
  · exact obeys_pure _
  · refine hR.halt.bind fun _ => (obeys_see _).bind fun s => ?_
    refine (hR.drain _ torques).bind fun drained => ?_
    cases drained with
    | error err => exact obeys_pure _
    | ok _ => exact hR.awaitOutcome id

/-- What is obeyed by all that a call does which starts nothing. -/
theorem perform {call : Engine.Call} (hcall : ¬ call.Starts) (e : Engine) :
    ∃ j, R e j (e.perform call).2 := by
  cases call with
  | update motion torques => exact hR.update motion torques e
  | stopGenerator => exact hR.stopGenerator e
  | setController mode => exact hR.setController mode e
  | finishMotion id motion torques => exact hR.finishMotion id motion torques e
  | cancelMotion => exact hR.cancelMotion e
  | startGenerator | startMotion => exact absurd trivial hcall

end Active

end Procedure
end ArmControl
