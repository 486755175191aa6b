import ArmControl.Proofs.Enduring

/-! # What a client cannot undo

An enduring property is `Standing` if the client does not undo it either, as long as it starts no
generator and asks none that is coming to rest to go on.

Most of what is said about a generator need not be said once it is gone.  Such a property is
`Guarded`, and it stands (`Guarded.standing`): of all that can be received, only a state that the
generator agrees with and a reply that does not withdraw it leave the generator active
(`Follows.observe_cases`, `Follows.status_of_withdrawal`). -/

namespace ArmControl

/-- The controller does not start the generator, or takes back its start. -/
def Reply.Withdraws (reply : Reply) : Prop :=
  ∃ status, status ≠ .success ∧ reply = .startMotion status

theorem Reply.not_withdraws_of_kind {reply : Reply} (h : reply.kind ≠ .startMotion) :
    ¬ reply.Withdraws := by
  rintro ⟨status, -, rfl⟩
  exact h rfl

/-! ### What comes of a check -/

namespace Motion

variable {m m' : Motion} {mode : MotionMode} {header : Header} {reply : Reply}
  {checked : Except SessionError Unit × Motion}

theorem Follows.eq_of_ok (h : Follows checked m) (hok : checked.1 = .ok ()) : m = checked.2 := by
  obtain ⟨result, m₁⟩ := checked
  subst hok
  rcases h with rfl | rfl <;> rfl

theorem Follows.status_eq (h : Follows checked m) : m.status = checked.2.status := by
  rcases h with rfl | rfl
  · rfl
  · obtain ⟨deferred, hdefer⟩ := defer_cases checked
    rw [hdefer]

/-- A state leaves the motion as it is, confirms its generator, or there is none any more. -/
theorem Follows.observe_cases (h : Follows (m.observe mode) m') :
    (m' = m ∧ (m.status = .running → mode = m.expected)) ∨
    (m.status = .starting ∧ mode = m.expected ∧ m' = { m with status := .running }) ∨
    m'.status = .notStarted := by
  rcases hobserve : m.observe mode with ⟨result, m₁⟩
  rw [hobserve] at h
  rcases Motion.observe_cases hobserve with ⟨rfl, rfl, -, hrunning, -⟩ |
    ⟨rfl, hstarting, hmode, rfl⟩ | ⟨-, -, -, rfl⟩ | ⟨-, -, -, -, -, rfl⟩
  · exact .inl ⟨h.eq_of_ok rfl, hrunning⟩
  · exact .inr (.inl ⟨hstarting, hmode, h.eq_of_ok rfl⟩)
  · exact .inr (.inr h.status_eq)
  · exact .inr (.inr h.status_eq)

/-- A reply leaves the motion as it is, puts its success on record, or there is no generator any
more. -/
theorem Follows.handle_cases (h : Follows (m.handle header reply) m') :
    m' = m ∨ m' = { m with outcome := some .success } ∨ m'.status = .notStarted := by
  rcases hhandle : m.handle header reply with ⟨result, m₁⟩
  rw [hhandle] at h
  rcases Motion.handle_cases hhandle with ⟨rfl, rfl⟩ | ⟨rfl, -, -, rfl⟩ | ⟨-, -, -, -, rfl⟩ |
    ⟨-, -, -, -, rfl⟩
  · exact .inl (h.eq_of_ok rfl)
  · exact .inr (.inl (h.eq_of_ok rfl))
  · exact .inr (.inr h.status_eq)
  · exact .inr (.inr h.status_eq)

/-- No generator is active after a withdrawal, whatever its id. -/
theorem Follows.status_of_withdrawal (h : Follows (m.handle header reply) m')
    (hwithdraws : reply.Withdraws) : m'.status = .notStarted := by
  obtain ⟨status, hstatus, rfl⟩ := hwithdraws
  rw [h.status_eq]
  unfold handle
  cases status with
  | success => exact absurd rfl hstatus
  | rejected | aborted =>
      simp only
      split
      · assumption
      · rfl

end Motion

namespace Engine

/-! ### Requests to end a motion -/

/-- A property that the client does not undo either, as long as it starts no generator and asks none
that is coming to rest to go on. -/
structure Standing (I : Engine → Prop) : Prop extends Enduring I where
  halt : ∀ {e}, I e → I (e.withMotion (e.motion.exchange .running .stopping))
  settle : ∀ {e} id, I e → I (e.withMotion (e.motion.settle id).2)
  clear : ∀ {e}, I e → I (e.withMotion e.motion.clear)

namespace Standing

variable {I : Engine → Prop} (hI : Standing I) {e : Engine}
include hI

theorem stopGenerator
    (hresume : ∀ {e}, I e → I (e.withMotion (e.motion.exchange .stopping .running))) (h : I e) :
    I e.stopGenerator.2 := by
  unfold Engine.stopGenerator
  split
  · exact h
  · have hkind : Request.stopMotion.kind ≠ .startMotion := by simp [Request.kind]
    have := hI.execute hkind (hI.halt h)
    simp only
    split <;> (rename_i hexecute; rw [hexecute] at this)
    · exact hresume this
    · exact this
    · exact hresume this

theorem cancelMotion (h : I e) : I e.cancelMotion := by
  have hkind : Request.stopMove.kind ≠ .startMotion := by simp [Request.kind]
  exact hI.clear (hI.execute hkind h)

theorem finishMotion (id : UInt32) (motion : Option MotionCommand) (torques : Option Torques)
    (h : I e) : I (e.finishMotion id motion torques).2 := by
  unfold Engine.finishMotion
  split
  · exact h
  · simp only
    generalize motion.getD _ = last
    have hdrained := hI.drain last.finish torques (hI.halt h)
    split <;> (rename_i hdrain; rw [hdrain] at hdrained)
    · exact hdrained
    · exact hI.awaitOutcome hI.settle id hdrained

end Standing

/-! ### While a generator is active -/

/-- A property that holds as long as a generator is active, and need not be said of one that is
gone. -/
structure Guarded (I : Engine → Prop) : Prop where
  gone : ∀ {e e' j}, I e → Passage e j e' → e'.motion.status = .notStarted → I e'
  quiet : ∀ {e e' j}, I e → Passage e j e' → j.replies = [] → j.accepted e.lastId = [] →
    e'.motion = e.motion → I e'
  state : ∀ {e e' entry s}, I e → Receives e entry e' → entry.event? = some (.state s) →
    newerThan e.lastId s → (e.motion.status = .running → s.motionMode = e.motion.expected) → I e'
  reply : ∀ {e e' entry header reply}, I e → Receives e entry e' →
    entry.event? = some (.reply header reply) → ¬ reply.Withdraws → I e'
  /-- The last state has confirmed the generator. -/
  confirm : ∀ {e s}, I e → e.motion.status = .starting → e.lastState = some s →
    s.motionMode = e.motion.expected → I (e.withMotion { e.motion with status := .running })
  halt : ∀ {e}, I e → I (e.withMotion (e.motion.exchange .running .stopping))
  note : ∀ {e} current outcome deferred lastCommand, I e →
    deferred = none ∨ deferred = e.motion.deferred →
    I (e.withMotion { e.motion with current, outcome, deferred, lastCommand })

namespace Guarded

variable {I : Engine → Prop} (hI : Guarded I) {e e' : Engine} {entry : Entry} {m : Motion}
include hI

theorem record (outcome : Option MoveStatus) (h : I e) :
    I (e.withMotion { e.motion with outcome }) :=
  hI.note e.motion.current outcome e.motion.deferred e.motion.lastCommand h (.inr rfl)

theorem standing : Standing I where
  quiet := by
    intro e e' j lastCommand h hpassage hreplies haccepted hmotion
    have hquiet : I (e'.withMotion e.motion) :=
      hI.quiet h (hpassage.withMotion e.motion) hreplies haccepted rfl
    have hnoted := hI.note e.motion.current e.motion.outcome e.motion.deferred lastCommand hquiet
      (.inr rfl)
    have heq : e'.withMotion { e.motion with lastCommand } = e' := by rw [← hmotion]; rfl
    exact heq ▸ hnoted
  state := by
    intro e e' entry s m h hreceives hevent hnew hm
    rcases hm.observe_cases with ⟨rfl, hrunning⟩ | ⟨hstarting, hmode, rfl⟩ | hnone
    · rw [← hreceives.motion]
      exact hI.state h hreceives hevent hnew hrunning
    · rw [← hreceives.motion] at hmode hstarting ⊢
      refine hI.confirm (hI.state h hreceives hevent hnew ?_) hstarting
        (lastState_of_newer hreceives hevent hnew) hmode
      rw [← hreceives.motion, hstarting]
      nofun
    · exact hI.gone h (hreceives.passage.withMotion m) hnone
  reply := by
    intro e e' entry header reply m h hreceives hevent hm
    by_cases hwithdraws : reply.Withdraws
    · exact hI.gone h (hreceives.passage.withMotion m) (hm.status_of_withdrawal hwithdraws)
    · have hkept : I e' := hI.reply h hreceives hevent hwithdraws
      rcases hm.handle_cases with rfl | rfl | hnone
      · rwa [← hreceives.motion]
      · rw [← hreceives.motion]
        exact hI.record _ hkept
      · exact hI.gone h (hreceives.passage.withMotion m) hnone
  answer := fun h hreceives hevent hkind =>
    hI.reply h hreceives hevent (Reply.not_withdraws_of_kind hkind)
  recheck := by
    intro e s h hlast
    have hm : Motion.Follows (e.motion.observe s.motionMode) (e.motion.observe s.motionMode).2 :=
      .inl rfl
    rcases hm.observe_cases with ⟨heq, -⟩ | ⟨hstarting, hmode, heq⟩ | hnone
    · rw [heq]
      exact h
    · rw [heq]
      exact hI.confirm h hstarting hlast hmode
    · exact hI.gone h ((Passage.refl e).withMotion _) hnone
  reset := fun h => hI.gone h ((Passage.refl _).withMotion _) rfl
  raised := fun {e} h =>
    hI.note e.motion.current e.motion.outcome none e.motion.lastCommand h (.inl rfl)
  halt := hI.halt
  settle := by
    intro e id h
    unfold Motion.settle
    split
    · exact hI.note none none e.motion.deferred e.motion.lastCommand h (.inr rfl)
    · exact hI.note none none e.motion.deferred e.motion.lastCommand h (.inr rfl)
    · split <;> exact h
  clear := fun h => hI.gone h ((Passage.refl _).withMotion _) rfl

end Guarded
end Engine
end ArmControl
