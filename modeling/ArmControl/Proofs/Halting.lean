import ArmControl.Proofs.History

/-! # Asking a generator to stop

A generator that is asked to stop counts as coming to rest before the controller has agreed, and as
running again if it does not agree.  In between anything may arrive, and the status may have moved
on by then.  `Halting` is what holds at every moment of this wait: the generator is still coming to
rest, and nothing else has changed but that its success may be on record; or it is `Halted`, by a
state that reports no generator, or by a reply that ends it, whose error is deferred.

So the status is taken back only where it has not moved (`stopGenerator_cases`), and a stop has been
taken or is undone (`stop_taken_or_undone`), unless the generator has gone. -/

namespace ArmControl

/-- A far end that lets a generator start, and takes it back when it is asked to stop it. -/
def FarEnd.revoking : FarEnd where
  script :=
    [(.request .startMotion, [.reply (.startMotion .success) none 0,
        .nextState { State.initial with motionMode := .jointVelocity } 1]),
      (.request .stopMotion, [.reply (.startMotion .aborted) none 0])]

/-! ### What ends a generator on its way to rest -/

/-- The reply takes the generator back, or it tells that the motion `current` has failed. -/
def Reply.Revokes (current : Option UInt32) (header : Header) (reply : Reply) : Prop :=
  reply.Withdraws ∨ ∃ status, status.isFailure ∧ reply = .move status ∧ current = some header.id

namespace Journal

variable {i : Journal} {last : Option UInt64} {current : Option UInt32}

/-- A state was accepted that reports no generator. -/
def ReportsRest (last : Option UInt64) (j : Journal) : Prop :=
  ∃ s ∈ j.accepted last, s.motionMode = .idle

/-- A reply was taken that ends the generator of the motion `current`. -/
def Revokes (current : Option UInt32) (j : Journal) : Prop :=
  ∃ p ∈ j.replies, p.2.Revokes current p.1

theorem ReportsRest.append (h : i.ReportsRest last) (j : Journal) : ReportsRest last (i ++ j) := by
  obtain ⟨s, hs, hmode⟩ := h
  exact ⟨s, mem_accepted_left hs j, hmode⟩

theorem Revokes.append (h : i.Revokes current) (j : Journal) : Revokes current (i ++ j) := by
  obtain ⟨p, hp, hrevokes⟩ := h
  exact ⟨p, by rw [replies_append]; exact List.mem_append_left _ hp, hrevokes⟩

end Journal

namespace Motion

variable {m m' : Motion} {header : Header} {reply : Reply} {err : SessionError}

/-- Only a reply that ends the generator is an error. -/
theorem handle_error (h : m.handle header reply = (.error err, m')) :
    m'.status = .notStarted ∧ reply.Revokes m.current header := by
  unfold handle at h
  split at h
  · cases h
  · rename_i status hstatus
    split at h
    · cases h
    · obtain ⟨-, rfl⟩ := Prod.mk.inj h
      exact ⟨rfl, .inl ⟨status, fun heq => hstatus (by rw [heq]), rfl⟩⟩
  · rename_i status
    split at h
    · rename_i hcurrent
      split at h
      · rename_i hfailure
        obtain ⟨-, rfl⟩ := Prod.mk.inj h
        exact ⟨rfl, .inr ⟨status, hfailure, rfl, hcurrent⟩⟩
      · split at h <;> cases h
    · cases h
  · cases h

/-- Any other reply has at most put the success of the motion on record. -/
theorem handle_ok (h : m.handle header reply = (.ok (), m')) :
    m' = m ∨ m' = { m with outcome := some .success } := by
  rcases handle_cases h with ⟨-, rfl⟩ | ⟨-, -, -, rfl⟩ | ⟨_, herr, -⟩ | ⟨_, herr, -⟩
  · exact .inl rfl
  · exact .inr rfl
  · cases herr
  · cases herr

theorem deferred_of_error (err : SessionError) (m : Motion) :
    (defer (.error err, m)).deferred ≠ none := by
  unfold defer
  cases hdeferred : m.deferred <;> simp [hdeferred]

end Motion

namespace Engine

variable {e e' e₀ : Engine} {m m' : Motion} {last : Option UInt64} {i j : Journal} {entry : Entry}
  {s : State} {header : Header} {reply : Reply} {result : Except SessionError Unit}

/-! ### While the reply is awaited -/

/-- The motion `m` has lost its generator while `j` was written, and has come to `m'`: a state has
said so, or else an error that says so is deferred. -/
def Halted (m : Motion) (last : Option UInt64) (j : Journal) (m' : Motion) : Prop :=
  m'.status = .notStarted ∧ (j.ReportsRest last ∨ j.Revokes m.current ∧ m'.deferred ≠ none)

/-- The generator of the motion `m` is still coming to rest, or has gone. -/
inductive Halting (m : Motion) (last : Option UInt64) (j : Journal) : Motion → Prop
  | resting (outcome : Option MoveStatus) : Halting m last j { m with status := .stopping, outcome }
  | halted {m' : Motion} : Halted m last j m' → Halting m last j m'

theorem Halted.append (h : Halted m last i m') (j : Journal) : Halted m last (i ++ j) m' :=
  ⟨h.1, h.2.imp (fun hrests => hrests.append j) fun hrevokes => ⟨hrevokes.1.append j, hrevokes.2⟩⟩

theorem Halting.append (h : Halting m last i m') (j : Journal) : Halting m last (i ++ j) m' := by
  cases h with
  | resting outcome => exact .resting outcome
  | halted h => exact .halted (h.append j)

/-- Only a state that reports no generator counts for one that is coming to rest. -/
theorem Halting.observe (h : Halting m last i m') (haccepted : s ∈ Journal.accepted last (i ++ j)) :
    Halting m last (i ++ j) (Motion.defer (m'.observe s.motionMode)) := by
  cases h with
  | resting outcome =>
      rcases hobserve : Motion.observe s.motionMode { m with status := .stopping, outcome } with
        ⟨result, m₁⟩
      rcases Motion.observe_cases hobserve with ⟨rfl, rfl, -⟩ | ⟨-, hstarting, -⟩ |
        ⟨rfl, -, hmode, rfl⟩ | ⟨_, -, -, hactive, -⟩
      · exact .resting outcome
      · cases hstarting
      · exact .halted ⟨rfl, .inl ⟨s, haccepted, hmode⟩⟩
      · rcases hactive with hstarting | hrunning
        · cases hstarting
        · cases hrunning
  | halted h =>
      rw [Motion.observe_of_notStarted h.1]
      exact .halted (h.append j)

/-- A reply that is not awaited ends the generator with an error, or leaves it alone. -/
theorem Halting.handle (h : Halting m last i m')
    (hevent : entry.event? = some (.reply header reply)) :
    Halting m last (i ++ [entry]) (Motion.defer (m'.handle header reply)) := by
  rcases hhandle : m'.handle header reply with ⟨err | ⟨⟩, m₁⟩
  · obtain ⟨hnone, hrevokes⟩ := Motion.handle_error hhandle
    have hdeferred := Motion.deferred_of_error err m₁
    have hstatus : (Motion.defer (.error err, m₁)).status = .notStarted := hnone
    cases h with
    | resting outcome =>
        have hmem : (header, reply) ∈ Journal.replies (i ++ [entry]) := by
          rw [Journal.replies_append, replies_of_reply hevent]
          exact List.mem_append_right _ (List.mem_singleton_self _)
        exact .halted ⟨hstatus, .inr ⟨⟨_, hmem, hrevokes⟩, hdeferred⟩⟩
    | halted h =>
        exact .halted ⟨hstatus, (h.append [entry]).2.imp_right fun h => ⟨h.1, hdeferred⟩⟩
  · change Halting m last (i ++ [entry]) m₁
    rcases Motion.handle_ok hhandle with rfl | rfl
    · exact h.append [entry]
    · cases h with
      | resting _ => exact .resting (some .success)
      | halted h => exact .halted (h.append [entry])

theorem awaitReply_halting (kind : FrameKind) (id : UInt32) (hpassage : Passage e₀ i e)
    (h : Halting m e₀.lastId i e.motion) :
    ∃ j, Passage e j (e.awaitReply kind id).2 ∧
      Halting m e₀.lastId (i ++ j) (e.awaitReply kind id).2.motion := by
  let I (j : Journal) (e : Engine) : Prop := Passage e₀ j e ∧ Halting m e₀.lastId j e.motion
  have hwait := wait_rule (judgeReply kind id) (.error .closed) e (I := I) (Q := fun _ => I)
    ?broken ?stale ?passed ?decided i ⟨hpassage, h⟩
  · obtain ⟨j, hpassage, -, -, hhalting⟩ := hwait
    exact ⟨j, hpassage, hhalting⟩
  case broken =>
    rintro j e₁ entry e₂ result ⟨hpassage, h⟩ hreceives - -
    exact ⟨hpassage.trans hreceives.passage, hreceives.motion ▸ h.append [entry]⟩
  case stale =>
    rintro j e₁ entry e₂ s ⟨hpassage, h⟩ hreceives - -
    exact ⟨hpassage.trans hreceives.passage, hreceives.motion ▸ h.append [entry]⟩
  case passed =>
    rintro j e₁ entry e₂ event m₁ ⟨hpassage, h⟩ hreceives hevent hnews hj
    refine ⟨(hpassage.trans hreceives.passage).withMotion m₁, ?_⟩
    rcases judgeReply_none hj with ⟨s, rfl, rfl⟩ | ⟨header, reply, rfl, -, rfl⟩
    · refine h.observe ?_
      rw [hpassage.accepted_concat, accepted_of_newer hevent hnews]
      exact List.mem_append_right _ (List.mem_singleton_self s)
    · exact h.handle hevent
  case decided =>
    rintro j e₁ entry e₂ event result m₁ ⟨hpassage, h⟩ hreceives - - hj
    obtain ⟨-, -, -, -, -, -, rfl⟩ := judgeReply_some hj
    exact ⟨(hpassage.trans hreceives.passage).withMotion _, h.append [entry]⟩

/-- What a request finds on its way to rest is on its way to rest afterwards, or has gone. -/
theorem execute_halting (request : Request) (hstopping : e.motion.status = .stopping) :
    ∃ j, Passage e j (e.execute request).2 ∧
      Halting e.motion e.lastId j (e.execute request).2.motion := by
  obtain ⟨i, hsent, -⟩ := passage_send request e
  have hresting : Halting e.motion e.lastId i e.motion := by
    have h : Halting e.motion e.lastId i { e.motion with status := .stopping } :=
      .resting e.motion.outcome
    rwa [← hstopping] at h
  unfold execute
  split
  · rename_i hsend
    rw [hsend] at hsent
    exact ⟨i, hsent, hresting⟩
  · rename_i id session hsend
    rw [hsend] at hsent
    obtain ⟨j, hpassage, hhalting⟩ := awaitReply_halting request.kind id hsent hresting
    split <;>
    · rename_i hanswer
      rw [hanswer] at hpassage hhalting
      exact ⟨i ++ j, hsent.trans hpassage, hhalting⟩

/-! ### The stop -/

/-- How a request to stop the generator of the motion `m` ends. -/
inductive Stopped (m : Motion) (last : Option UInt64) (j : Journal) :
    Except SessionError Unit → Motion → Prop
  | taken (outcome : Option MoveStatus) :
      Stopped m last j (.ok ()) { m with status := .stopping, outcome }
  | undone {err} (outcome : Option MoveStatus) :
      Stopped m last j (.error err) { m with status := .running, outcome }
  | halted {result : Except SessionError Unit} {m' : Motion} :
      Halted m last j m' → Stopped m last j result m'

/-- Taking the status back makes the generator run again that is still coming to rest, and does
nothing if it has gone. -/
theorem Halting.undone {err : SessionError} (h : Halting m last j m') :
    Stopped m last j (.error err) (m'.exchange .stopping .running) := by
  cases h with
  | resting outcome =>
      exact .undone outcome
  | halted h =>
      rw [Motion.exchange_of_ne (by simp [h.1])]
      exact .halted h

theorem Halting.taken (h : Halting m last j m') : Stopped m last j (.ok ()) m' := by
  cases h with
  | resting outcome => exact .taken outcome
  | halted h => exact .halted h

theorem Stopped.of_stopping (h : Stopped { m with status := .stopping } last j result m') :
    Stopped m last j result m' := by
  cases h with
  | taken outcome => exact .taken outcome
  | undone outcome => exact .undone outcome
  | halted h => exact .halted h

theorem stopGenerator_of_idle (h : e.motion.status ≠ .running) :
    e.stopGenerator = (.error (.motion .notRunning), e) := by
  simp [stopGenerator, h]

theorem stopGenerator_cases (h : e.stopGenerator = (result, e'))
    (hrunning : e.motion.status = .running) :
    ∃ j, Passage e j e' ∧ j.attempts = [Request.stopMotion.encode e.session.nextId] ∧
      j.commands = [] ∧
      (result = .ok () ↔ j.repliesTo .stopMotion e.session.nextId = [.stopMotion .success]) ∧
      Stopped e.motion e.lastId j result e'.motion := by
  let e₀ := e.withMotion { e.motion with status := .stopping }
  rcases hexecute : e₀.execute .stopMotion with ⟨answer, e₁⟩
  obtain ⟨j, hpassage, hattempts, hcommands, hexecuted⟩ := execute_cases hexecute
  obtain ⟨i, hsame, hhalting⟩ := execute_halting .stopMotion (e := e₀) rfl
  rw [hexecute] at hsame hhalting
  obtain rfl := List.append_cancel_left (hsame.journal.symm.trans hpassage.journal)
  replace hpassage : Passage e i e₁ := hpassage.of_withMotion
  replace hexecuted : Executed .stopMotion e.session.nextId
    (i.repliesTo .stopMotion e.session.nextId) answer := hexecuted
  simp only [stopGenerator, hrunning, ne_eq, not_true_eq_false, if_false,
    Motion.exchange_of_eq hrunning] at h
  split at h
  all_goals
    rename_i heq
    obtain ⟨rfl, rfl⟩ := Prod.mk.inj (hexecute.symm.trans heq)
    obtain ⟨rfl, rfl⟩ := Prod.mk.inj h
  · refine ⟨i, hpassage.withMotion _, hattempts, hcommands, ?_, hhalting.undone.of_stopping⟩
    cases hexecuted with
    | broken hnone _ => simp [hnone]
  · refine ⟨i, hpassage, hattempts, hcommands, ?_, hhalting.taken.of_stopping⟩
    cases hexecuted with
    | answered honly _ => simp [honly]
  · rename_i reply _ hother
    refine ⟨i, hpassage.withMotion _, hattempts, hcommands, ?_, hhalting.undone.of_stopping⟩
    cases hexecuted with
    | answered honly _ => simpa [honly] using hother

/-- A request to stop a running generator is tried once, and no command is sent; it succeeds just if
the controller has agreed.  If it succeeds, the generator is coming to rest, and if it fails, it
runs as before; or else it has gone.  It has gone only because a state has reported no generator or
the controller has ended it, and in the second case an error is deferred. -/
theorem stop_taken_or_undone (session : Session) (settings : Settings) (clock : Clock)
    (turns : List Turn) :
    let e := (Engine.start session settings clock).after turns
    let m := e.motion
    let result := e.stopGenerator.1
    let e' := e.stopGenerator.2
    let m' := e'.motion
    m.status = .running →
    ∃ j : Journal, e'.link.journal = e.link.journal ++ j ∧
      j.attempts = [Request.stopMotion.encode e.session.nextId] ∧ j.commands = [] ∧
      (result = .ok () ↔ j.repliesTo .stopMotion e.session.nextId = [.stopMotion .success]) ∧
      (result = .ok () →
        (m'.status = .stopping ∧ m'.expected = m.expected ∧ m'.current = m.current) ∨
          m'.status = .notStarted) ∧
      (∀ err, result = .error err →
        (m'.status = .running ∧ m'.expected = m.expected ∧ m'.current = m.current ∧
            m'.lastCommand = m.lastCommand) ∨
          m'.status = .notStarted) ∧
      (m'.status = .notStarted →
        j.ReportsRest e.lastId ∨ j.Revokes m.current ∧ m'.deferred ≠ none) := by
  intro e m result e' m' hrunning
  obtain ⟨j, hpassage, hattempts, hcommands, hagreed, hstopped⟩ :=
    stopGenerator_cases (Prod.eta e.stopGenerator).symm hrunning
  refine ⟨j, hpassage.journal, hattempts, hcommands, hagreed, ?_⟩
  change Stopped m e.lastId j result m' at hstopped
  generalize result = result at hstopped
  generalize m' = m' at hstopped
  cases hstopped with
  | taken outcome => exact ⟨fun _ => .inl ⟨rfl, rfl, rfl⟩, nofun, nofun⟩
  | undone outcome => exact ⟨nofun, fun _ _ => .inl ⟨rfl, rfl, rfl, rfl⟩, nofun⟩
  | halted h => exact ⟨fun _ => .inr h.1, fun _ _ => .inr h.1, fun _ => h.2⟩

theorem stop_taken_or_undone_withdrawn :
    let e := (Engine.start { link := { farEnd := .revoking } } {} default).after
      [.call (.startGenerator .jointVelocity)]
    let e' := e.stopGenerator.2
    e.motion.status = .running ∧ e.stopGenerator.1 = .error (.link .timeout) ∧
    ∃ j : Journal, e'.link.journal = e.link.journal ++ j ∧
      j.attempts = [Request.stopMotion.encode e.session.nextId] ∧ j.commands = [] ∧
      e'.motion.status = .notStarted ∧
      (j.ReportsRest e.lastId ∨ j.Revokes e.motion.current ∧ e'.motion.deferred ≠ none) := by
  intro e e'
  have hrunning : e.motion.status = .running := by decide +kernel
  have hgone : e'.motion.status = .notStarted := by decide +kernel
  obtain ⟨j, hjournal, hattempts, hcommands, -, -, -, hcause⟩ :=
    stop_taken_or_undone { link := { farEnd := .revoking } } {} default _ hrunning
  exact ⟨hrunning, by decide +kernel, j, hjournal, hattempts, hcommands, hgone, hcause hgone⟩

end Engine
end ArmControl
