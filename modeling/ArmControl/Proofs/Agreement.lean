import ArmControl.Proofs.Halting
import ArmControl.Proofs.History

/-! # Whether the arm agrees

A generator counts as running because a state has reported its mode, and each state that is accepted
while it counts as running is checked against that mode (`guarded_heeds`).  So between two calls the
last state reports the mode of a running generator, and so does every state that a call has accepted
which found it running and left it so.

There is one exception.  While a generator comes to rest any mode may be reported; and when the
controller does not agree to stop it, it counts as running again, whatever has been reported in the
meantime (`Overlooked`).  `running_agrees` states both for every engine that can be reached. -/

namespace ArmControl

/-- A far end that lets a generator start, and answers its stop with nothing but a state of another
generator. -/
def FarEnd.evasive : FarEnd where
  script :=
    [(.request .startMotion, [.reply (.startMotion .success) none 0,
        .nextState { State.initial with motionMode := .jointPosition } 1]),
      (.request .stopMotion, [.nextState { State.initial with motionMode := .jointVelocity } 1])]

namespace Engine

variable {e e' e₀ : Engine} {call : Call} {turns : List Turn} {T : State → Prop}
  {mode : MotionMode}

/-! ### The last state -/

/-- While the generator runs, the last state reports its mode, or it is one that `T` allows. -/
def Agrees (T : State → Prop) (e : Engine) : Prop :=
  e.motion.status = .running → ∃ s, e.lastState = some s ∧ (s.motionMode = e.motion.expected ∨ T s)

theorem agrees_of_not_running (h : e.motion.status ≠ .running) : Agrees T e :=
  fun hrunning => absurd hrunning h

theorem Agrees.mono {T' : State → Prop} (h : Agrees T e)
    (hsub : ∀ s, e.motion.status = .running → e.lastState = some s → T s → T' s) :
    Agrees T' e := by
  intro hrunning
  obtain ⟨s, hlast, hs⟩ := h hrunning
  exact ⟨s, hlast, hs.imp_right (hsub s hrunning hlast)⟩

theorem Agrees.of_eq (h : Agrees T e) (hlast : e'.lastState = e.lastState)
    (hmotion : e'.motion = e.motion) : Agrees T e' := by
  unfold Agrees
  rw [hlast, hmotion]
  exact h

theorem halt_status (m : Motion) : (m.exchange .running .stopping).status ≠ .running := by
  by_cases hrunning : m.status = .running
  · rw [Motion.exchange_of_eq hrunning]
    nofun
  · rwa [Motion.exchange_of_ne hrunning]

theorem guarded_agrees (T : State → Prop) : Guarded (Agrees T) where
  gone _ _ hnone := agrees_of_not_running (by simp [hnone])
  quiet h hpassage _ haccepted hmotion :=
    h.of_eq (hpassage.lastState_of_accepted_nil haccepted) hmotion
  state h hreceives hevent hnew hmode := by
    intro hrunning
    rw [hreceives.motion] at hrunning ⊢
    exact ⟨_, lastState_of_newer hreceives hevent hnew, .inl (hmode hrunning)⟩
  reply h hreceives hevent _ :=
    h.of_eq (hreceives.passage.lastState_of_accepted_nil (accepted_of_reply _ hevent))
      hreceives.motion
  confirm h _ hlast hmode := fun _ => ⟨_, hlast, .inl hmode⟩
  halt {e} _ := agrees_of_not_running (halt_status e.motion)
  note _ _ _ _ h _ := h

/-! ### One call -/

/-- A start leaves a running generator only with the state that has confirmed it. -/
theorem agrees_start (hstatus : e.motion.status = .notStarted) (hstart : call.Starts)
    (T : State → Prop) : Agrees T (e.perform call).2 := by
  have hI := (guarded_agrees T).standing
  have hgone {e : Engine} (hstatus : e.motion.status = .notStarted) : Agrees T e :=
    agrees_of_not_running (by simp [hstatus])
  have hconfirmed {e : Engine} (since : Option UInt64) (hstatus : e.motion.status = .starting) :
      Agrees T (e.confirmGenerator since).2 :=
    hI.confirmGenerator since (agrees_of_not_running (by simp [hstatus]))
  cases call with
  | startGenerator type =>
      have hexecuted := Motion.lasting_notStarted.execute (.startMotion type) hstatus
      change Agrees T (e.startGenerator type).2
      unfold Engine.startGenerator
      rw [if_neg (not_not.2 hstatus)]
      simp only
      split <;> (rename_i heq; rw [heq] at hexecuted)
      · exact hgone hexecuted
      · exact hconfirmed e.lastId rfl
      · exact hgone hexecuted
  | startMotion controller motion path goal =>
      change Agrees T (e.startMotion controller motion path goal).2
      have hexecuted := Motion.lasting_notStarted.execute
        (e := e.withMotion { e.motion with outcome := none })
        (.move ⟨controller, motion, path, goal⟩) hstatus
      unfold Engine.startMotion
      split
      · exact hgone hstatus
      · simp only
        split <;> (rename_i heq; rw [heq] at hexecuted)
        · exact hgone hexecuted
        · rename_i id e₁
          have hagrees := hconfirmed e.lastId
            (e := e₁.withMotion ({ e₁.motion with current := some id }.begin motion)) rfl
          split <;> (rename_i hconfirm; rw [hconfirm] at hagrees)
          · exact hgone rfl
          · exact hagrees.of_eq rfl rfl
        · exact hgone hexecuted
  | update | stopGenerator | setController | finishMotion | cancelMotion => exact hstart.elim

/-- An active generator has this mode. -/
def Expects (mode : MotionMode) (e : Engine) : Prop :=
  e.motion.status ≠ .notStarted → e.motion.expected = mode

theorem Expects.of_motion (h : Expects mode e) (hmotion : e'.motion = e.motion) :
    Expects mode e' := by
  unfold Expects
  rw [hmotion]
  exact h

/-- An exchange of the status of an active generator for that of another keeps its mode. -/
theorem Expects.exchange {a b : MotionStatus} (h : Expects mode e) (ha : a ≠ .notStarted) :
    Expects mode (e.withMotion (e.motion.exchange a b)) := by
  by_cases hstatus : e.motion.status = a
  · rw [Motion.exchange_of_eq hstatus]
    exact fun _ => h (hstatus ▸ ha)
  · rw [Motion.exchange_of_ne hstatus]
    exact h

theorem guarded_expects (mode : MotionMode) : Guarded (Expects mode) where
  gone _ _ hnone := fun hactive => absurd hnone hactive
  quiet h _ _ _ hmotion := h.of_motion hmotion
  state h hreceives _ _ _ := h.of_motion hreceives.motion
  reply h hreceives _ _ := h.of_motion hreceives.motion
  confirm h hstarting _ _ := fun _ => h (by simp [hstarting])
  halt h := h.exchange (by decide)
  note _ _ _ _ h _ := h

/-- A generator whose stop was agreed to does not run any more. -/
theorem stopGenerator_status (h : e.stopGenerator = (.ok (), e')) :
    e'.motion.status ≠ .running := by
  by_cases hrunning : e.motion.status = .running
  · obtain ⟨j, -, -, -, -, hstopped⟩ := stopGenerator_cases h hrunning
    generalize e'.motion = m' at hstopped
    cases hstopped with
    | taken => simp
    | halted hhalted => simp [hhalted.1]
  · rw [stopGenerator_of_idle hrunning] at h
    cases h

/-- A generator that still runs after it was asked to stop may have been overlooked: the last state
is then another than before. -/
theorem agrees_stopGenerator (horderly : e.Orderly) (h : Agrees T e) :
    Agrees (fun s => T s ∨ e.motion.status = .running ∧ e.lastState ≠ some s ∧
      ∃ err, e.stopGenerator.1 = .error err) e.stopGenerator.2 := by
  intro hafter
  by_cases hrunning : e.motion.status = .running
  · have hexpects : Expects e.motion.expected e.stopGenerator.2 :=
      (guarded_expects e.motion.expected).standing.stopGenerator (fun h => h.exchange (by decide))
        fun _ => rfl
    have horderly' := (horderly.perform .stopGenerator).1
    obtain ⟨s, hlast⟩ := Option.ne_none_iff_exists'.1 (horderly'.state_of_active (.inl hafter))
    refine ⟨s, hlast, ?_⟩
    by_cases hsame : e.lastState = some s
    · obtain ⟨t, ht, hagrees⟩ := h hrunning
      obtain rfl := Option.some.inj (ht.symm.trans hsame)
      rw [hexpects (by simp [hafter])]
      exact hagrees.imp_right .inl
    · rcases hstop : e.stopGenerator with ⟨err | ⟨⟩, e₁⟩
      · exact .inr (.inr ⟨hrunning, hsame, err, rfl⟩)
      · rw [hstop] at hafter
        exact absurd hafter (stopGenerator_status hstop)
  · rw [stopGenerator_of_idle hrunning] at hafter
    exact absurd hafter hrunning

/-! ### A session -/

/-- The state `s` was accepted while a generator was asked to come to rest that did not agree, and
it is still the last state of that generator. -/
def Overlooked (s : State) : Engine → List Turn → Prop :=
  Since (fun e call => call = .stopGenerator ∧ e.motion.status = .running ∧ e.lastState ≠ some s ∧
      ∃ err, (e.perform call).1 = .error err)
    fun e => e.motion.status = .running ∧ e.lastState = some s

/-- Between two calls the last state reports the mode of a running generator, unless it was
overlooked. -/
theorem agrees_after (h₀ : e₀.motion = {}) (turns : List Turn) :
    Agrees (fun s => Overlooked s e₀ turns) (e₀.after turns) := by
  induction turns using List.reverseRecOn with
  | nil => exact agrees_of_not_running (by simp [after, h₀])
  | append_singleton turns t ih =>
      -- what was overlooked before still is, if it is still the last state
      have hkept (h : Agrees (fun s => Overlooked s e₀ turns) (e₀.after (turns ++ [t]))) :
          Agrees (fun s => Overlooked s e₀ (turns ++ [t])) (e₀.after (turns ++ [t])) :=
        h.mono fun s hrunning hlast hover => hover.concat ⟨hrunning, hlast⟩
      have horderly : (e₀.after turns).Orderly := (orderly_of_idle h₀).after turns
      cases t with
      | happen happenings =>
          rw [after_concat] at hkept ⊢
          exact hkept (ih.of_eq rfl rfl)
      | call call =>
          by_cases hstart : call.Starts
          · by_cases hactive : (e₀.after turns).motion.status = .notStarted
            · rw [after_concat]
              exact agrees_start hactive hstart _
            · obtain ⟨refusal, hrefused⟩ := perform_of_busy hstart hactive
              rw [after_concat] at hkept ⊢
              exact hkept (ih.of_eq (by simp [turn, hrefused]) (by simp [turn, hrefused]))
          · by_cases hstop : call = .stopGenerator
            · subst hstop
              have hagrees := agrees_stopGenerator horderly ih
              change Agrees _ ((e₀.after turns).turn (.call .stopGenerator)) at hagrees
              rw [← after_concat] at hagrees
              refine hagrees.mono fun s hrunning hlast hs => ?_
              rcases hs with hover | hmissed
              · exact hover.concat ⟨hrunning, hlast⟩
              · exact .of_begins ⟨rfl, hmissed⟩ ⟨hrunning, hlast⟩
            · rw [after_concat] at hkept ⊢
              exact hkept ((guarded_agrees _).standing.perform hstart hstop ih)

/-! ### The states of a call -/

/-- Since the engine was `e` no generator has begun, and while one runs every state that was
accepted reports its mode. -/
def Heeds (e e' : Engine) : Prop :=
  ∃ j, Passage e j e' ∧ e'.motion.status ≠ .starting ∧ Expects e.motion.expected e' ∧
    (e'.motion.status = .running → ∀ s ∈ j.accepted e.lastId, s.motionMode = e.motion.expected)

theorem guarded_heeds (e : Engine) : Guarded (Heeds e) where
  gone := by
    rintro e₁ e₂ j ⟨i, hpassage₁, -⟩ hpassage₂ hnone
    refine ⟨_, hpassage₁.trans hpassage₂, ?_, ?_, ?_⟩
    · simp [hnone]
    · exact fun hactive => absurd hnone hactive
    · exact fun hrunning => absurd hrunning (by simp [hnone])
  quiet := by
    rintro e₁ e₂ j ⟨i, hpassage₁, hstarting, hexpects, hagree⟩ hpassage₂ - haccepted hmotion
    refine ⟨_, hpassage₁.trans hpassage₂, by rwa [hmotion], hexpects.of_motion hmotion, ?_⟩
    rw [hmotion, Journal.accepted_append, ← hpassage₁.lastId, haccepted, List.append_nil]
    exact hagree
  state := by
    rintro e₁ e₂ entry s ⟨i, hpassage₁, hstarting, hexpects, hagree⟩ hreceives hevent hnew hmode
    have hmotion := hreceives.motion
    refine ⟨_, hpassage₁.trans hreceives.passage, by rwa [hmotion], hexpects.of_motion hmotion, ?_⟩
    rw [hmotion, hpassage₁.accepted_concat, accepted_of_newer hevent hnew]
    intro hrunning t ht
    rcases List.mem_append.1 ht with ht | ht
    · exact hagree hrunning t ht
    · obtain rfl := List.mem_singleton.1 ht
      rw [hmode hrunning]
      exact hexpects (by simp [hrunning])
  reply := by
    rintro e₁ e₂ entry header reply ⟨i, hpassage₁, hstarting, hexpects, hagree⟩ hreceives hevent -
    have hmotion := hreceives.motion
    refine ⟨_, hpassage₁.trans hreceives.passage, by rwa [hmotion], hexpects.of_motion hmotion, ?_⟩
    rw [hmotion, hpassage₁.accepted_concat, accepted_of_reply _ hevent, List.append_nil]
    exact hagree
  confirm := by
    rintro e₁ s ⟨i, -, hstarting, -⟩ hstatus
    exact absurd hstatus hstarting
  halt := by
    rintro e₁ ⟨i, hpassage₁, hstarting, hexpects, hagree⟩
    refine ⟨i, hpassage₁.withMotion _, ?_, hexpects.exchange (by decide), ?_⟩
    · by_cases hrunning : e₁.motion.status = .running
      · rw [Motion.exchange_of_eq hrunning]
        nofun
      · rwa [Motion.exchange_of_ne hrunning]
    · exact fun hrunning => absurd hrunning (halt_status e₁.motion)
  note := by
    rintro e₁ current outcome deferred lastCommand ⟨i, hpassage₁, hrest⟩ -
    exact ⟨i, hpassage₁.withMotion _, hrest⟩

/-- The states that a call accepts which finds a generator running and leaves it so, and does not
ask it to stop. -/
theorem heeds_perform (h : e.Orderly) (hrunning : e.motion.status = .running)
    (hstop : call ≠ .stopGenerator) : Heeds e (e.perform call).2 := by
  have hsame : Heeds e e := by
    refine ⟨[], .refl e, h.not_starting, fun _ => rfl, fun _ s hs => ?_⟩
    cases hs
  by_cases hstart : call.Starts
  · obtain ⟨refusal, hrefused⟩ := perform_of_busy (e := e) hstart (by simp [hrunning])
    rwa [hrefused]
  · exact (guarded_heeds e).standing.perform hstart hstop hsame

/-- Between two calls the last state reports the mode of a running generator, unless it was accepted
while the generator was asked to stop and did not agree to.  A call that does not ask it to stop
leaves a generator running only if it reports its mode with every state that the call accepts. -/
theorem running_agrees (session : Session) (settings : Settings) (clock : Clock)
    (turns : List Turn) :
    let e₀ := Engine.start session settings clock
    let e := e₀.after turns
    (e.motion.status = .running → ∃ s, e.lastState = some s ∧
      (s.motionMode = e.motion.expected ∨ Overlooked s e₀ turns)) ∧
    ∀ call, call ≠ .stopGenerator → e.motion.status = .running →
      (e.perform call).2.motion.status = .running →
      ∃ j : Journal, (e.perform call).2.link.journal = e.link.journal ++ j ∧
        ∀ s ∈ j.accepted e.lastId, s.motionMode = e.motion.expected := by
  intro e₀ e
  refine ⟨agrees_after rfl turns, fun call hstop hbefore hafter => ?_⟩
  have horderly : e.Orderly := (orderly_start session settings clock).after turns
  obtain ⟨j, hpassage, -, -, hagree⟩ := heeds_perform horderly hbefore hstop
  exact ⟨j, hpassage.journal, hagree hafter⟩

theorem running_agrees_start :
    let e₀ := Engine.start { link := { farEnd := .evasive } } {} default
    let turns := [Turn.call (.startGenerator .jointPosition),
      .happen [.say [.nextState { State.initial with motionMode := .jointPosition } 1]]]
    let e := e₀.after turns
    e.motion.status = .running ∧
      (∃ s, e.lastState = some s ∧ (s.motionMode = e.motion.expected ∨ Overlooked s e₀ turns)) ∧
    (e.perform (.update none none)).2.motion.status = .running ∧
      ∃ j : Journal, (e.perform (.update none none)).2.link.journal = e.link.journal ++ j ∧
        ∀ s ∈ j.accepted e.lastId, s.motionMode = e.motion.expected := by
  intro e₀ turns e
  have hrunning : e.motion.status = .running := by decide +kernel
  have hafter : (e.perform (.update none none)).2.motion.status = .running := by decide +kernel
  obtain ⟨hlast, hcall⟩ := running_agrees { link := { farEnd := .evasive } } {} default turns
  exact ⟨hrunning, hlast hrunning, hafter, hcall (.update none none) nofun hrunning hafter⟩

/-- A generator counts as running again after the last state has reported another one, and no error
of the motion is raised or deferred. -/
theorem running_otherwise :
    let e := (Engine.start { link := { farEnd := .evasive } } {} default).after
      [.call (.startGenerator .jointPosition)]
    let e' := e.stopGenerator.2
    e.stopGenerator.1 = .error (.link .timeout) ∧ e'.motion.status = .running ∧
      e'.motion.expected = .jointPosition ∧ e'.motion.deferred = none ∧
      e'.lastState.map State.motionMode = some .jointVelocity := by
  decide +kernel

end Engine
end ArmControl
