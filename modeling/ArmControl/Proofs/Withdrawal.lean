import ArmControl.Proofs.History

/-! # Withdrawals

The controller may take back the start of a generator long after it has agreed to it.  Such a reply
bears the id of the start request, and at most one of all start requests is the one that the active
generator stems from (`exists_origin`).  But nobody compares the two: whatever its id, a withdrawal
that nobody waits for ends the generator that is active (`Unawaited.of_withdraws`), in whichever
wait it is taken (`unwithdrawn_perform`).

`withdrawn_under_any_id` puts this together for every engine that can be reached: that only the
generator's own withdrawal ends it is true of a reply just if no generator is active or the reply is
that withdrawal. -/

namespace ArmControl

/-- A far end that lets a generator start. -/
def FarEnd.starting : FarEnd where
  script := [(.request .startMotion, [.reply (.startMotion .success) none 0,
    .nextState { State.initial with motionMode := .jointVelocity } 1])]

namespace Engine

variable {e e' e₀ : Engine} {call : Call} {turns : List Turn} {header : Header} {reply : Reply}
  {m m' : Motion}

/-! ### A reply that nobody waits for -/

/-- What the motion `m` may become by a reply that is handled while the engine waits for something
else: for a state, for another reply, or for the final status of a motion. -/
inductive Unawaited (header : Header) (reply : Reply) (m : Motion) : Motion → Prop
  | state : Unawaited header reply m (judgeState (.reply header reply) m).2
  | reply {kind id} : ¬ (header.kind = kind ∧ header.id = id) →
      Unawaited header reply m (judgeReply kind id (.reply header reply) m).2
  | outcome {id} : Unawaited header reply m (judgeOutcome id (.reply header reply) m).2

/-- Neither the generator nor what is to be raised has changed. -/
def Spares (m m' : Motion) : Prop :=
  m'.status = m.status ∧ m'.expected = m.expected ∧ m'.lastCommand = m.lastCommand ∧
    m'.deferred = m.deferred

theorem Spares.refl (m : Motion) : Spares m m := ⟨rfl, rfl, rfl, rfl⟩

theorem spares_settle (id : UInt32) (m : Motion) : Spares m (m.settle id).2 := by
  unfold Motion.settle
  split
  · exact .refl m
  · exact .refl m
  · split <;> exact .refl m

theorem handle_of_withdraws (h : reply.Withdraws) (header : Header) (m : Motion) :
    (m.status = .notStarted ∧ m.handle header reply = (.ok (), m)) ∨
    (m.status ≠ .notStarted ∧ ∃ err, m.handle header reply = (.error err, m.reset)) := by
  obtain ⟨status, hstatus, rfl⟩ := h
  by_cases hnone : m.status = .notStarted
  · refine .inl ⟨hnone, ?_⟩
    cases status with
    | success => exact absurd rfl hstatus
    | rejected | aborted => simp [Motion.handle, hnone]
  · refine .inr ⟨hnone, .motion (.withdrawn status), ?_⟩
    cases status with
    | success => exact absurd rfl hstatus
    | rejected | aborted => simp [Motion.handle, hnone]

/-- A withdrawal under any id ends the generator that is active, and does nothing if there is
none. -/
theorem Unawaited.of_withdraws (h : Unawaited header reply m m') (hwithdraws : reply.Withdraws) :
    (m.status = .notStarted ∧ Spares m m') ∨
      (m.status ≠ .notStarted ∧ ∃ deferred, m' = { m.reset with deferred }) := by
  rcases handle_of_withdraws hwithdraws header m with ⟨hnone, hhandle⟩ | ⟨hactive, err, hhandle⟩
  · refine .inl ⟨hnone, ?_⟩
    cases h with
    | state =>
        simp only [judgeState, hhandle]
        exact .refl m
    | reply hother =>
        simp only [judgeReply, if_neg hother, hhandle]
        exact .refl m
    | outcome =>
        simp only [judgeOutcome, hhandle]
        exact spares_settle _ m
  · refine .inr ⟨hactive, ?_⟩
    cases h with
    | state => exact ⟨m.deferred, by simp only [judgeState, hhandle]; rfl⟩
    | reply hother =>
        simp only [judgeReply, if_neg hother, hhandle]
        exact Motion.defer_cases _
    | outcome => exact ⟨m.deferred, by simp only [judgeOutcome, hhandle]; rfl⟩

/-! ### The calls -/

/-- As long as a generator is active, nothing that was taken since the engine was `e` withdraws
it. -/
def Unwithdrawn (e e' : Engine) : Prop :=
  ∃ j, Passage e j e' ∧
    (e'.motion.status ≠ .notStarted → ∀ p ∈ j.replies, ¬ p.2.Withdraws)

theorem Unwithdrawn.trans {j : Journal} {e'' : Engine} (h : Unwithdrawn e e')
    (hpassage : Passage e' j e'') (hactive : e''.motion.status ≠ .notStarted →
      e'.motion.status ≠ .notStarted ∧ ∀ p ∈ j.replies, ¬ p.2.Withdraws) :
    Unwithdrawn e e'' := by
  obtain ⟨i, hpassage₁, hkept⟩ := h
  refine ⟨i ++ j, hpassage₁.trans hpassage, fun hstatus p hp => ?_⟩
  rw [Journal.replies_append] at hp
  rcases List.mem_append.1 hp with hp | hp
  · exact hkept (hactive hstatus).1 p hp
  · exact (hactive hstatus).2 p hp

theorem Unwithdrawn.withMotion (h : Unwithdrawn e e')
    (hactive : m.status ≠ .notStarted → e'.motion.status ≠ .notStarted) :
    Unwithdrawn e (e'.withMotion m) := by
  obtain ⟨i, hpassage, hkept⟩ := h
  exact ⟨i, hpassage.withMotion m, fun hstatus => hkept (hactive hstatus)⟩

theorem Unwithdrawn.exchange (h : Unwithdrawn e e') {a b : MotionStatus} (ha : a ≠ .notStarted) :
    Unwithdrawn e (e'.withMotion (e'.motion.exchange a b)) := by
  refine h.withMotion fun hstatus hnone => hstatus ?_
  rw [Motion.exchange_of_ne (hnone ▸ ha.symm)]
  exact hnone

theorem guarded_unwithdrawn (e : Engine) : Guarded (Unwithdrawn e) where
  gone h hpassage hnone := h.trans hpassage fun hactive => absurd hnone hactive
  quiet h hpassage hreplies _ hmotion :=
    h.trans hpassage fun hactive => ⟨hmotion ▸ hactive, by simp [hreplies]⟩
  state h hreceives hevent _ _ :=
    h.trans hreceives.passage fun hactive =>
      ⟨hreceives.motion ▸ hactive, by simp [replies_of_state hevent]⟩
  reply h hreceives hevent hkeeps :=
    h.trans hreceives.passage fun hactive =>
      ⟨hreceives.motion ▸ hactive, by simpa [replies_of_reply hevent] using hkeeps⟩
  confirm h hstarting _ _ := h.withMotion fun _ => by simp [hstarting]
  halt h := h.exchange (by decide)
  note _ _ _ _ h _ := h.withMotion fun hactive => hactive

/-- A withdrawal that a call takes ends the generator that was active before, whatever the call
waits for. -/
theorem unwithdrawn_perform (hactive : e.motion.status ≠ .notStarted) (call : Call) :
    Unwithdrawn e (e.perform call).2 := by
  have h : Unwithdrawn e e := ⟨[], .refl e, fun _ p hp => by cases hp⟩
  by_cases hstart : call.Starts
  · obtain ⟨refusal, hrefused⟩ := perform_of_busy hstart hactive
    rwa [hrefused]
  · exact (guarded_unwithdrawn e).standing.perform_of_resume (fun h => h.exchange (by decide))
      hstart h

/-! ### A session -/

/-- The active generator was started by the request with this id: a call sends its first request
under the next id of the session. -/
def StemsFrom (id : UInt32) : Engine → List Turn → Prop :=
  Since (fun e call => (∃ type, call = .startGenerator type) ∧ (e.perform call).1 = .ok () ∧
      e.session.nextId = id)
    fun e => e.motion.status ≠ .notStarted

/-- The active generator was started with a motion. -/
def StemsFromMotion : Engine → List Turn → Prop :=
  Since (fun e call => (∃ controller motion path goal,
      call = .startMotion controller motion path goal) ∧ (e.perform call).1 = .ok ())
    fun e => e.motion.status ≠ .notStarted

theorem notStarted_of_start (hstart : call.Starts) (hok : (e.perform call).1 = .ok ()) :
    e.motion.status = .notStarted := by
  by_contra hactive
  obtain ⟨refusal, hrefused⟩ := perform_of_busy hstart hactive
  rw [hrefused] at hok
  cases hok

/-- An active generator stems from one request to start it, or else from a motion. -/
theorem exists_origin (h₀ : e₀.motion = {}) (turns : List Turn) :
    ∃ origin : Option UInt32, (∀ id, StemsFrom id e₀ turns ↔ origin = some id) ∧
      ((e₀.after turns).motion.status ≠ .notStarted → origin = none →
        StemsFromMotion e₀ turns) := by
  by_cases hstems : ∃ id, StemsFrom id e₀ turns
  · obtain ⟨id, hid⟩ := hstems
    refine ⟨some id, fun id' => ⟨fun hid' => ?_, fun heq => ?_⟩, nofun⟩
    · have hnew {e : Engine} {call : Call} {id : UInt32}
          (hbegins : (∃ type, call = .startGenerator type) ∧ (e.perform call).1 = .ok () ∧
            e.session.nextId = id) : ¬ e.motion.status ≠ .notStarted := by
        obtain ⟨⟨type, rfl⟩, hok, -⟩ := hbegins
        have hstart : (Call.startGenerator type).Starts := trivial
        exact not_not.2 (notStarted_of_start hstart hok)
      obtain ⟨before, call, later, -, ⟨⟨-, -, h⟩, -, -, h'⟩, -⟩ := hid.meet hid' hnew hnew
      rw [← h, ← h']
    · exact Option.some.inj heq ▸ hid
  · refine ⟨none, fun id => ⟨fun hid => absurd ⟨id, hid⟩ hstems, nofun⟩, fun hactive _ => ?_⟩
    have hsince : Since (fun e call => call.Starts ∧ (e.perform call).1 = .ok ())
        (fun e => e.motion.status ≠ .notStarted) e₀ turns :=
      since_start h₀ id (fun hbefore _ => hbefore) turns hactive
    obtain ⟨before, call, later, rfl, ⟨hstart, hok⟩, hlater⟩ := hsince
    cases call with
    | startGenerator type =>
        exact absurd ⟨_, before, _, later, rfl, ⟨⟨type, rfl⟩, hok, rfl⟩, hlater⟩ hstems
    | startMotion controller motion path goal =>
        exact ⟨before, _, later, rfl, ⟨⟨controller, motion, path, goal, rfl⟩, hok⟩, hlater⟩
    | update | stopGenerator | setController | finishMotion | cancelMotion => exact hstart.elim

/-- What would become of the motion `m` if only its own withdrawal, which `own` tells, ended the
generator. -/
def Correlates (own : Prop) (m m' : Motion) : Prop :=
  (m.status ≠ .notStarted → m'.status = .notStarted → own) ∧ (¬ own → Spares m m')

theorem Unawaited.correlates_iff (h : Unawaited header reply m m') (hwithdraws : reply.Withdraws)
    (own : Prop) : Correlates own m m' ↔ m.status = .notStarted ∨ own := by
  rcases h.of_withdraws hwithdraws with ⟨hnone, hspares⟩ | ⟨hactive, deferred, rfl⟩
  · exact ⟨fun _ => .inl hnone, fun _ => ⟨fun hactive => absurd hnone hactive, fun _ => hspares⟩⟩
  · constructor
    · intro hcorrelates
      exact .inr (hcorrelates.1 hactive rfl)
    · intro hown
      have hown := hown.resolve_left hactive
      exact ⟨fun _ _ => hown, fun hother => absurd hown hother⟩

/-- An active generator stems from at most one start request.  Yet a withdrawal that is handled
while nobody waits for it ends the generator under any id, so that it is only as it should be if
there is no generator or the id is that of the request; and there is no generator any more after a
call that has taken a withdrawal. -/
theorem withdrawn_under_any_id (session : Session) (settings : Settings) (clock : Clock)
    (turns : List Turn) :
    let e₀ := Engine.start session settings clock
    let e := e₀.after turns
    ∃ origin : Option UInt32, (∀ id, StemsFrom id e₀ turns ↔ origin = some id) ∧
      (e.motion.status ≠ .notStarted → origin = none → StemsFromMotion e₀ turns) ∧
      (∀ header reply m', reply.Withdraws → Unawaited header reply e.motion m' →
        (Correlates (origin = some header.id) e.motion m' ↔
          e.motion.status = .notStarted ∨ origin = some header.id)) ∧
      ∀ (call : Call) (j : Journal), e.motion.status ≠ .notStarted →
        (e.perform call).2.link.journal = e.link.journal ++ j →
        (∃ p ∈ j.replies, p.2.Withdraws) → (e.perform call).2.motion.status = .notStarted := by
  intro e₀ e
  have hidle : e₀.motion = {} := rfl
  obtain ⟨origin, hstems, hmotion⟩ := exists_origin hidle turns
  refine ⟨origin, hstems, hmotion, ?_, ?_⟩
  · intro header reply m' hwithdraws hunawaited
    exact hunawaited.correlates_iff hwithdraws _
  · rintro call j hactive hjournal ⟨p, hp, hwithdraws⟩
    obtain ⟨i, hpassage, hkept⟩ := unwithdrawn_perform hactive call
    obtain rfl := List.append_cancel_left (hjournal.symm.trans hpassage.journal)
    by_contra hafter
    exact hkept hafter p hp hwithdraws

theorem withdrawn_under_any_id_update :
    let e₀ := Engine.start { link := { farEnd := .starting } } {} default
    let rejection : Reply := .startMotion .rejected
    let turns := [Turn.call (.startGenerator .jointVelocity),
      .happen [.say [.reply rejection (some 7) 0]]]
    let e := e₀.after turns
    let header : Header := ⟨.startMotion, 7, 13⟩
    let e' := (e.perform (.update none none)).2
    let j : Journal := e'.link.journal.drop e.link.journal.length
    rejection.Withdraws ∧ e.motion.status ≠ .notStarted ∧
      e'.link.journal = e.link.journal ++ j ∧ (header, rejection) ∈ j.replies ∧
    ∃ origin : Option UInt32, (∀ id, StemsFrom id e₀ turns ↔ origin = some id) ∧
      (Correlates (origin = some 7) e.motion (judgeState (.reply header rejection) e.motion).2 ↔
        e.motion.status = .notStarted ∨ origin = some 7) ∧
      e'.motion.status = .notStarted := by
  intro e₀ rejection turns e header e' j
  have hwithdraws : rejection.Withdraws := ⟨.rejected, by decide, rfl⟩
  have hactive : e.motion.status ≠ .notStarted := by decide +kernel
  have hjournal : e'.link.journal = e.link.journal ++ j := by decide +kernel
  have hmem : (header, rejection) ∈ j.replies := by decide +kernel
  obtain ⟨origin, hstems, -, hcorrelates, hcall⟩ :=
    withdrawn_under_any_id { link := { farEnd := .starting } } {} default turns
  exact ⟨hwithdraws, hactive, hjournal, hmem, origin, hstems,
    hcorrelates header rejection _ hwithdraws .state,
    hcall (.update none none) j hactive hjournal ⟨_, hmem, hwithdraws⟩⟩

/-- A generator that stems from the request 0 is ended by a withdrawal of the request 7, which was
never made. -/
theorem withdrawn_by_another :
    let e₀ := Engine.start { link := { farEnd := .starting } } {} default
    let turns := [Turn.call (.startGenerator .jointVelocity),
      .happen [.say [.reply (.startMotion .rejected) (some 7) 0]]]
    let e := e₀.after turns
    StemsFrom 0 e₀ turns ∧ ¬ StemsFrom 7 e₀ turns ∧ e.session.nextId = 1 ∧
      e.motion.status = .running ∧
      (e.update none none).1 = .error (.motion (.withdrawn .rejected)) ∧
      (e.update none none).2.motion.status = .notStarted := by
  intro e₀ turns e
  have hstarted : StemsFrom 0 e₀ ([] ++ [.call (.startGenerator .jointVelocity)]) :=
    .of_begins ⟨⟨.jointVelocity, rfl⟩, by decide +kernel, by decide +kernel⟩ (by decide +kernel)
  have hstems : StemsFrom 0 e₀ turns := hstarted.concat (by decide +kernel)
  have hidle : e₀.motion = {} := rfl
  obtain ⟨origin, horigin, -⟩ := exists_origin hidle turns
  refine ⟨hstems, fun hother => ?_, by decide +kernel⟩
  have hzero := (horigin 0).1 hstems
  rw [(horigin 7).1 hother] at hzero
  exact absurd hzero (by decide)

end Engine
end ArmControl
