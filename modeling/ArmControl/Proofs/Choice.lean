import ArmControl.Proofs.Correspondence
import ArmControl.Proofs.Decision
import ArmControl.Proofs.Growth
import ArmControl.Proofs.Ledger
import ArmControl.Proofs.Nesting

/-! # The choice of a controller

A controller is chosen by a request, and by a state that confirms it.  The request is `Granted` when
the reply to it reports success.  From then on the engine examines its last state, and `Awaits` one
state after the other as long as no deadline has passed and no message has brought an error.

`controller_confirmed` states that the choice succeeds just if one of the states that it examines
reports the controller and is newer than all that were accepted before the call, whether it came
before the reply or after it.  Nothing is taken behind the later of the two, and the state is the
first one that the user is shown. -/

namespace ArmControl

namespace Engine

variable {e e₁ e₂ e' : Engine} {mode : ControllerMode} {since : Option UInt64} {s : State}
  {passed rest messages : List Incoming} {datagram : Bytes}

/-! ### The controller that was confirmed last -/

theorem intake_controllerMode (e : Engine) (incoming : Incoming) :
    (e.intake incoming).2.controllerMode = e.controllerMode := by
  unfold intake
  split
  · split
    · rfl
    · split <;> rfl
  · simp only
    split <;> rfl
  · rfl

theorem wait_controllerMode {α : Type} (judge : Judge α) (ended : Except SessionError α)
    (e : Engine) : (e.wait judge ended).2.controllerMode = e.controllerMode := by
  have htaken {e e' : Engine} {incoming : Incoming} {link : Link}
      {taken : Except SessionError Intake}
      (h : (e.withLink link).intake incoming = (taken, e')) :
      e'.controllerMode = e.controllerMode := by
    have hkept := (e.withLink link).intake_controllerMode incoming
    rwa [h] at hkept
  fun_induction wait judge ended e with
  | case1 e err link hr => cases err <;> rfl
  | case2 e incoming link hr err e' ha | case3 e incoming link hr e' ha => exact htaken ha
  | case5 e incoming link hr event e' ha result m hj =>
      have hkept := htaken ha
      exact hkept
  | case4 e incoming link hr e' ha ih => exact ih.trans (htaken ha)
  | case6 e incoming link hr event e' ha m hj ih =>
      have hkept := htaken ha
      exact ih.trans hkept

theorem execute_controllerMode (request : Request) (e : Engine) :
    (e.execute request).2.controllerMode = e.controllerMode := by
  unfold execute awaitReply
  split
  · rfl
  · rename_i id session _
    have hkept := wait_controllerMode (judgeReply request.kind id) (.error .closed)
      { e with session }
    split <;> (rename_i hwait; rw [hwait] at hkept; exact hkept)

theorem awaitController_controllerMode
    (h : (e.awaitController mode since).1 ≠ .ok ()) :
    (e.awaitController mode since).2.controllerMode = e.controllerMode := by
  have hpolled {e e₁ e₂ : Engine} {late : Bool} {result : Except SessionError (Option State)}
      (hlook : e.look = (late, e₁)) (hpoll : e₁.poll = (result, e₂)) :
      e₂.controllerMode = e.controllerMode := by
    have hkept := wait_controllerMode judgeState (.ok none) e₁
    obtain rfl : e.look.2 = e₁ := congrArg Prod.snd hlook
    rw [← poll, hpoll] at hkept
    exact hkept
  fun_induction awaitController mode since e with
  | case1 e hconfirms => exact absurd rfl h
  | case2 e hconfirms e₁ hlook =>
      obtain rfl : e.look.2 = e₁ := congrArg Prod.snd hlook
      rfl
  | case3 e hconfirms e₁ hlook s e₂ hpoll ih => exact (ih h).trans (hpolled hlook hpoll)
  | case4 e hconfirms e₁ hlook e₂ hpoll | case5 e hconfirms e₁ hlook err e₂ hpoll =>
      exact hpolled hlook hpoll

/-- The choice goes on to wait for a state when its request was granted; otherwise it fails. -/
theorem setController_split (mode : ControllerMode) (e : Engine) :
    (∃ id e₁, e.execute (.setController mode) = (.ok (id, .setController .success), e₁) ∧
      e.setController mode = e₁.awaitController mode e.lastId) ∨
    ∃ err, e.setController mode = (.error err, (e.execute (.setController mode)).2) ∧
      ∀ id e₁, e.execute (.setController mode) ≠ (.ok (id, .setController .success), e₁) := by
  unfold setController
  rcases e.execute (.setController mode) with ⟨err | ⟨id, reply⟩, e₁⟩
  · exact .inr ⟨err, rfl, by simp⟩
  · by_cases hreply : reply = .setController .success
    · subst hreply
      exact .inl ⟨id, e₁, rfl, rfl⟩
    · refine .inr ⟨.motion (.controllerRejected mode reply), ?_, by simp [hreply]⟩
      split <;> simp_all

/-- A choice that has failed leaves the controller that was confirmed last. -/
theorem setController_controllerMode (h : (e.setController mode).1 ≠ .ok ()) :
    (e.setController mode).2.controllerMode = e.controllerMode := by
  have hexecute := execute_controllerMode (.setController mode) e
  rcases setController_split mode e with ⟨id, e₁, heq, hset⟩ | ⟨err, hset, -⟩
  · rw [heq] at hexecute
    rw [hset] at h ⊢
    exact (awaitController_controllerMode h).trans hexecute
  · rw [hset]
    exact hexecute

/-! ### The states that are examined -/

/-- The engine `e` has become `e'` by waiting for one state after the other, each before a deadline
has passed and without an error, and has taken these messages. -/
inductive Awaits : Engine → List Incoming → Engine → Prop
  | here (e : Engine) : Awaits e [] e
  | further {e e₁ e' : Engine} {passed later messages : List Incoming} {datagram : Bytes}
      {s : State} : e.look.1 = false → e.link.Listens →
      e.link.pending = passed ++ .state datagram :: later →
      (∀ incoming ∈ passed, ¬ e.Decisive incoming) →
      DecidedBy (e.look.2.overlooking passed) (.state datagram :: later) (.ok (some s)) e₁ →
      Awaits e₁ messages e' → Awaits e (passed ++ .state datagram :: messages) e'

/-- A cycle that gives a state was decided by a message that agrees with the motion. -/
theorem DecidedBy.agreeing_of_state (h : DecidedBy e rest (.ok (some s)) e') :
    ∃ datagram later, rest = .state datagram :: later ∧ State.decode datagram = .ok s ∧
      newerThan e.lastId s ∧ ¬ e.motion.Contradicted s.motionMode ∧
      e' = ((e.taking (.state datagram)).accept s).withMotion (e.motion.follow s.motionMode) := by
  cases h with
  | broken hbroken => cases hbroken
  | agreeing hdecode hnewer hagrees => exact ⟨_, _, rfl, hdecode, hnewer, hagrees, rfl⟩

theorem poll_of_decided (hlistens : e.link.Listens)
    (hpending : e.link.pending = passed ++ .state datagram :: rest)
    (hpassed : ∀ incoming ∈ passed, ¬ e.Decisive incoming)
    (h : DecidedBy (e.overlooking passed) (.state datagram :: rest) (.ok (some s)) e') :
    e.poll = (.ok (some s), e') := by
  obtain ⟨_, _, heq, hdecode, hnewer, hagrees, rfl⟩ := h.agreeing_of_state
  obtain ⟨⟨⟩, rfl⟩ := List.cons.inj heq
  have hthere : (e.overlooking passed).link.pending = .state datagram :: rest :=
    Link.pending_taking passed hpending
  have hwait : (e.overlooking passed).wait judgeState (.ok none) = _ :=
    wait_state (hlistens.taking passed) hthere hdecode hnewer
  rw [poll_overlooking hlistens hpending hpassed, poll, hwait]
  simp only [judgeState, Motion.observe_of_not_contradicted hagrees]

theorem decided_of_poll (h : e.poll = (.ok (some s), e')) :
    e.link.Listens ∧ ∃ passed datagram later,
      e.link.pending = passed ++ .state datagram :: later ∧
      (∀ incoming ∈ passed, ¬ e.Decisive incoming) ∧
      DecidedBy (e.overlooking passed) (.state datagram :: later) (.ok (some s)) e' := by
  have hlistens : e.link.Listens := by
    by_contra hdeaf
    rw [poll, wait_of_not_listens _ _ hdeaf] at h
    cases h
  obtain ⟨passed, rest, hpending, hpassed, hrest⟩ := exists_first e.Decisive e.link.pending
  have hthere : (e.overlooking passed).link.pending = rest := Link.pending_taking passed hpending
  have hdecided := poll_decided (e := e.overlooking passed) (hlistens.taking passed) hthere hrest
  rw [← poll_overlooking hlistens hpending hpassed, h] at hdecided
  obtain ⟨datagram, later, rfl, -⟩ := hdecided.agreeing_of_state
  exact ⟨hlistens, passed, datagram, later, hpending, hpassed, hdecided⟩

/-- What is awaited is taken off the link, and nothing behind it. -/
theorem Awaits.link (h : Awaits e messages e') : e'.link = e.link.taking messages := by
  induction h with
  | here e => exact e.link.taking_nil.symm
  | @further e e₁ e' passed later messages datagram s _ _ _ _ hdecided _ ih =>
      obtain ⟨_, _, heq, -, -, -, rfl⟩ := hdecided.agreeing_of_state
      obtain ⟨⟨⟩, rfl⟩ := List.cons.inj heq
      calc e'.link = ((e.link.taking passed).taking [.state datagram]).taking messages := ih
        _ = e.link.taking (passed ++ .state datagram :: messages) := by
          rw [← Link.taking_cons, Link.taking_append]

/-- The last message that is awaited brings the last state. -/
theorem Awaits.last (h : Awaits e messages e') : messages = [] ∧ e' = e ∨
    ∃ front datagram s, messages = front ++ [.state datagram] ∧ State.decode datagram = .ok s ∧
      e'.lastState = some s := by
  induction h with
  | here e => exact .inl ⟨rfl, rfl⟩
  | @further e e₁ e' passed later messages datagram s _ _ _ _ hdecided _ ih =>
      obtain ⟨_, _, heq, hdecode, -, -, rfl⟩ := hdecided.agreeing_of_state
      obtain ⟨⟨⟩, rfl⟩ := List.cons.inj heq
      rcases ih with ⟨rfl, rfl⟩ | ⟨front, datagram', t, rfl, hdecode', ht⟩
      · exact .inr ⟨passed, datagram, s, rfl, hdecode, rfl⟩
      · exact .inr ⟨passed ++ .state datagram :: front, datagram', t, by simp, hdecode', ht⟩

theorem confirmsController_iff : e.confirmsController mode since = true ↔
    ∃ s, e.lastState = some s ∧ newerThan since s ∧ s.controllerMode = mode := by
  unfold confirmsController
  cases e.lastState <;> simp

theorem awaits_of_awaitController (h : e.awaitController mode since = (.ok (), e')) :
    ∃ messages e₁, Awaits e messages e₁ ∧ e₁.confirmsController mode since = true ∧
      e' = { e₁ with controllerMode := some mode } := by
  fun_induction awaitController mode since e with
  | case1 e hconfirms =>
      obtain ⟨-, rfl⟩ := Prod.mk.inj h
      exact ⟨[], e, .here e, hconfirms, rfl⟩
  | case3 e hconfirms e₁ hlook s e₂ hpoll ih =>
      obtain ⟨messages, e₃, hawaits, hresult⟩ := ih h
      obtain ⟨hlate, rfl⟩ := Prod.mk.inj hlook
      obtain ⟨hlistens, passed, datagram, later, hpending, hpassed, hdecided⟩ :=
        decided_of_poll hpoll
      exact ⟨_, e₃, .further hlate hlistens hpending hpassed hdecided hawaits, hresult⟩
  | case2 | case4 | case5 => cases h

theorem awaitController_of_poll (hconfirms : e.confirmsController mode since = false)
    (hlate : e.look.1 = false) (hpoll : e.look.2.poll = (.ok (some s), e₁)) :
    e.awaitController mode since = e₁.awaitController mode since := by
  rw [awaitController, if_neg (by simp [hconfirms])]
  split
  · rename_i hlook
    cases hlate.symm.trans (congrArg Prod.fst hlook)
  · rename_i hlook
    obtain rfl := congrArg Prod.snd hlook
    split <;> (rename_i heq; cases hpoll.symm.trans heq)
    rfl

theorem awaitController_of_awaits (h : Awaits e messages e')
    (hconfirms : e'.confirmsController mode since = true) :
    (e.awaitController mode since).1 = .ok () := by
  induction h with
  | here e => rw [awaitController, if_pos hconfirms]
  | @further e e₁ e' passed later messages datagram s hlate hlistens hpending hpassed hdecided _
      ih =>
      have hpoll : e.look.2.poll = (.ok (some s), e₁) :=
        poll_of_decided hlistens hpending hpassed hdecided
      -- a state before the last one may have confirmed the controller already
      cases hearlier : e.confirmsController mode since with
      | true => rw [awaitController, if_pos hearlier]
      | false =>
          rw [awaitController_of_poll hearlier hlate hpoll]
          exact ih hconfirms

/-! ### The request that is granted -/

/-- The engine `e` has become `e₁` by a request for this controller that was granted: it has taken
these messages, the last of which is the reply to the request, and the others were overheard. -/
inductive Granted (mode : ControllerMode) (e : Engine) : List Incoming → Engine → Prop
  | intro {session : Session} {passed later : List Incoming} {frame : Bytes} {header : Header}
      {errs : List SessionError} {overheard : Engine} :
      e.session.send (.setController mode) = (.ok e.session.nextId, session) →
      session.link.Listens → session.link.pending = passed ++ .reply frame :: later →
      (∀ incoming ∈ passed, ¬ Concludes .setController e.session.nextId incoming) →
      Overhears { e with session } passed errs overheard →
      Reply.decode frame = .ok (header, .setController .success) →
      header.id = e.session.nextId →
      Granted mode e (passed ++ [.reply frame])
        ((overheard.taking (.reply frame)).count Metrics.countReply)

theorem granted_of_execute {id : UInt32}
    (h : e.execute (.setController mode) = (.ok (id, .setController .success), e₁)) :
    ∃ messages, Granted mode e messages e₁ := by
  have hexchanged := execute_exchanged (.setController mode) e
  rw [h] at hexchanged
  dsimp only at hexchanged
  generalize hanswer : (.ok (id, .setController .success) :
    Except SessionError (UInt32 × Reply)) = answer at hexchanged
  cases hexchanged with
  | refused | unheard => cases hanswer
  | concluded hsend hlistens hpending hpassed _ hoverhears hconcluded _ _ =>
      cases hconcluded with
      | answered hdecode hkind hid _ =>
          obtain ⟨-, rfl⟩ := Prod.mk.inj (Except.ok.inj hanswer)
          exact ⟨_, .intro hsend hlistens hpending hpassed hoverhears hdecode hid⟩
      | broken hbroken => cases hbroken <;> cases hanswer

theorem Granted.execute (h : Granted mode e messages e₁) : e.execute (.setController mode) =
    (.ok (e.session.nextId, .setController .success), e₁) := by
  cases h with
  | @intro session passed later frame header errs overheard hsend hlistens hpending hpassed
      hoverhears hdecode hid =>
      have hkind : header.kind = .setController := (Reply.kind_of_decode hdecode).symm
      have hlink : overheard.link = session.link.taking passed := hoverhears.link
      have hwait : overheard.awaitReply .setController e.session.nextId = _ :=
        wait_reply (hlink ▸ hlistens.taking passed)
          (hlink ▸ Link.pending_taking passed hpending) hdecode
      have hawait := awaitReply_of_overhears hoverhears hlistens hpending hpassed
      rw [hwait] at hawait
      simp only [Engine.execute, hsend]
      rw [show Request.kind (.setController mode) = .setController from rfl, hawait]
      simp only [judgeReply, hkind, hid, and_self, if_true]
      rfl

/-- What is taken for the request is what comes up to its reply. -/
theorem Granted.link (h : Granted mode e messages e₁) :
    e₁.link = (e.session.send (.setController mode)).2.link.taking messages := by
  cases h with
  | @intro session passed later frame header errs overheard hsend hlistens hpending hpassed
      hoverhears hdecode hid =>
      rw [hsend]
      calc overheard.link.taking [.reply frame]
          = (session.link.taking passed).taking [.reply frame] := by rw [hoverhears.link]; rfl
        _ = session.link.taking (passed ++ [.reply frame]) := Link.taking_append _ _ _

/-! ### The choice -/

/-- The request of `e` for this controller was granted, and `s` is the last state that was examined
since: it is newer than those that were accepted before, and reports the controller.  The messages
are those that were taken for the request and behind its reply. -/
structure Confirmed (mode : ControllerMode) (e : Engine) (accepted : List State)
    (granted awaited : List Incoming) (s : State) (e₂ : Engine) : Prop where
  examined : ∃ e₁, Granted mode e granted e₁ ∧ Awaits e₁ awaited e₂
  last : e₂.lastState = some s
  newer : ∀ t ∈ accepted, t.messageId < s.messageId
  reported : s.controllerMode = mode

variable {granted awaited : List Incoming} {accepted : List State}

/-- A controller that was confirmed is chosen. -/
theorem Confirmed.setController (h : Confirmed mode e accepted granted awaited s e₂)
    (hnewer : newerThan e.lastId s) : (e.setController mode).1 = .ok () := by
  obtain ⟨e₁, hgranted, hawaits⟩ := h.examined
  rcases setController_split mode e with ⟨id, e₃, hexecute, hset⟩ | ⟨err, hset, hnot⟩
  · obtain ⟨-, rfl⟩ := Prod.mk.inj (hgranted.execute.symm.trans hexecute)
    rw [hset]
    exact awaitController_of_awaits hawaits
      (confirmsController_iff.2 ⟨s, h.last, hnewer, h.reported⟩)
  · exact absurd hgranted.execute (hnot _ _)

/-- A controller that is chosen was confirmed.  Nothing was taken behind the reply to the request
and the state that has confirmed it. -/
theorem confirmed_of_setController (h : e.setController mode = (.ok (), e'))
    (hnewer : ∀ s, newerThan e.lastId s → ∀ t ∈ accepted, t.messageId < s.messageId) :
    e'.controllerMode = some mode ∧
      ∃ granted awaited s e₂, Confirmed mode e accepted granted awaited s e₂ ∧
        e'.lastState = some s ∧
        e'.link = (e.session.send (.setController mode)).2.link.taking (granted ++ awaited) ∧
        (awaited = [] ∨ ∃ front datagram, awaited = front ++ [.state datagram] ∧
          State.decode datagram = .ok s) := by
  rcases setController_split mode e with ⟨id, e₁, hexecute, hset⟩ | ⟨err, hset, -⟩
  · obtain ⟨granted, hgranted⟩ := granted_of_execute hexecute
    obtain ⟨awaited, e₂, hawaits, hconfirms, rfl⟩ := awaits_of_awaitController (hset.symm.trans h)
    obtain ⟨s, hs, hnew, hmode⟩ := confirmsController_iff.1 hconfirms
    refine ⟨rfl, granted, awaited, s, e₂, ⟨⟨e₁, hgranted, hawaits⟩, hs, hnewer s hnew, hmode⟩, hs,
      ?_, ?_⟩
    · rw [← Link.taking_append, ← hgranted.link]
      exact hawaits.link
    · refine hawaits.last.imp And.left ?_
      rintro ⟨front, datagram, t, hfront, hdecode, ht⟩
      obtain rfl : t = s := Option.some.inj (ht.symm.trans hs)
      exact ⟨front, datagram, hfront, hdecode⟩
  · cases h.symm.trans hset

end Engine

/-- A state is newer than the last one that was accepted if it is newer than all of them. -/
theorem Journal.newerThan_lastId_iff {j : Journal} {s : State} :
    Engine.newerThan (j.lastId none) s ↔ ∀ t ∈ j.accepted none, t.messageId < s.messageId := by
  constructor
  · intro hnewer t ht
    exact (newerThan_latest_iff.1 hnewer).2 t ((records_sublist none j.states).subset ht)
  · intro hall
    unfold lastId latest
    rw [Option.or_none]
    cases hlast : (records none j.states).getLast? with
    | none => rfl
    | some t => simpa [Engine.newerThan] using hall t (List.mem_of_getLast? hlast)

/-! ### The states that are shown -/

section

variable {σ : Type} {credit : σ → Nat} {cb : Robot.Callback credit State Bool}

/-- What was noted first stays in front. -/
theorem Robot.Callback.noted_keeps (s : State) :
    (cb.noted id).onEngine.Keeps fun p => p.2.2.head? = some s := by
  rintro input e ⟨op, m, shown⟩ hs
  change (shown ++ [input]).head? = some s
  rw [List.head?_append, hs, Option.some_or]

/-- Idle control shows the state that has confirmed the controller before any other, and no state at
all if none has. -/
theorem Robot.controlIdle_shown {r : Robot} (h : r.slot = none) (mode : ControllerMode)
    (cb : Robot.Callback credit State Bool) (m : σ) :
    let chosen := r.engine.setController mode
    let shown := (r.controlIdle mode (cb.noted id) (m, [])).2.1.2
    (chosen.1 = .ok () → ∃ s, chosen.2.lastState = some s ∧ s.controllerMode = mode ∧
      shown.head? = some s) ∧ (chosen.1 ≠ .ok () → shown = []) := by
  rcases hset : r.engine.setController mode with ⟨result, e⟩
  obtain ⟨-, -, -, -, ⟨rfl, s, hs, -, hmode⟩ | ⟨err, rfl, -⟩⟩ := Engine.setController_cases hset
  · refine ⟨fun _ => ⟨s, hs, hmode, ?_⟩, fun hfailed => absurd rfl hfailed⟩
    simp only [controlIdle, operate_of_free h, hset, hs]
    rcases hcall : (cb.noted id).onEngine.call s e (.controlling mode .idle, m, []) with
      ⟨more, p, e₁⟩
    have hlog := cb.noted_logs id s e (.controlling mode .idle, m, [])
    rw [hcall] at hlog
    have hfirst : p.2.2.head? = some s := by rw [show p.2.2 = [s] from hlog]; rfl
    cases more with
    | false => exact hfirst
    | true => exact showStates_keeps (Callback.noted_keeps s) e₁ hfirst
  · refine ⟨fun hok => absurd hok (by simp), fun _ => ?_⟩
    simp only [controlIdle, operate_of_free h, hset]

end

namespace Engine

/-- Every choice of a controller tries one request and sends no command.  It succeeds just if a
state has confirmed the controller; then it has taken nothing behind the reply to the request and
this state.  If it fails, the controller that was confirmed last is still the same.  When idle
control has chosen its controller, it shows the state that has confirmed it before any other. -/
theorem controller_confirmed {σ : Type} {credit : σ → Nat} (session : Session) (link : Link)
    (settings : Settings) (clock : Clock) (turns : List Turn) (operations : List Robot.Turn)
    (mode : ControllerMode) (cb : Robot.Callback credit State Bool) (m : σ) :
    (let e := (start session settings clock).after turns
      let sent := (e.session.send (.setController mode)).2
      let result := (e.setController mode).1
      let e' := (e.setController mode).2
      ∃ before j : Journal, e.link.journal = session.link.journal ++ before ∧
        e'.link.journal = e.link.journal ++ j ∧
        j.attempts = [(Request.setController mode).encode e.session.nextId] ∧ j.commands = [] ∧
        (result = .ok () ↔
          ∃ granted awaited s e₂, Confirmed mode e (before.accepted none) granted awaited s e₂) ∧
        (result = .ok () → e'.controllerMode = some mode ∧
          ∃ granted awaited s e₂, Confirmed mode e (before.accepted none) granted awaited s e₂ ∧
            e'.lastState = some s ∧ e'.link = sent.link.taking (granted ++ awaited) ∧
            (awaited = [] ∨ ∃ front datagram, awaited = front ++ [.state datagram] ∧
              State.decode datagram = .ok s)) ∧
        (result ≠ .ok () → e'.controllerMode = e.controllerMode)) ∧
    let r := (Robot.connect link settings clock).2.after operations
    let chosen := r.engine.setController mode
    ∃ result m' shown r', r.controlIdle mode cb m = (result, m', r') ∧
      r.controlIdle mode (cb.noted id) (m, []) = (result, (m', shown), r') ∧
      (chosen.1 = .ok () → ∃ s, chosen.2.lastState = some s ∧ s.controllerMode = mode ∧
        shown.head? = some s) ∧
      (chosen.1 ≠ .ok () → shown = []) := by
  refine ⟨?confirmed, ?shown⟩
  case confirmed =>
    intro e sent result e'
    obtain ⟨before, hbefore⟩ := after_passage turns (start session settings clock)
    have hset : e.setController mode = (result, e') := rfl
    obtain ⟨j, hpassage, hattempts, hcommands, -⟩ := setController_cases hset
    have hnewer (s : State) : newerThan e.lastId s ↔
        ∀ t ∈ before.accepted none, t.messageId < s.messageId := by
      rw [hbefore.lastId]
      exact Journal.newerThan_lastId_iff
    have hchosen (hok : result = .ok ()) := confirmed_of_setController
      (hset.trans (congrArg (·, e') hok)) fun s => (hnewer s).1
    refine ⟨before, j, hbefore.journal, hpassage.journal, hattempts, hcommands, ⟨?_, ?_⟩, hchosen,
      setController_controllerMode⟩
    · intro hok
      obtain ⟨-, granted, awaited, s, e₂, hconfirmed, -⟩ := hchosen hok
      exact ⟨granted, awaited, s, e₂, hconfirmed⟩
    · rintro ⟨granted, awaited, s, e₂, hconfirmed⟩
      exact hconfirmed.setController ((hnewer s).2 hconfirmed.newer)
  case shown =>
    intro r chosen
    have hquiescent : r.Quiescent := (Robot.connect_quiescent link settings clock).after operations
    have hplain := Robot.controlIdle_erase (cb.noted_erases id) mode r (m, [])
    obtain ⟨hfirst, hnone⟩ := Robot.controlIdle_shown hquiescent.slot mode cb m
    rcases hnoted : r.controlIdle mode (cb.noted id) (m, []) with ⟨result, ⟨m', shown⟩, r'⟩
    rw [hnoted] at hplain hfirst hnone
    exact ⟨result, m', shown, r', hplain, rfl, hfirst, hnone⟩

example :
    let s := { State.initial with controllerMode := .cartesianImpedance }
    let granted := Reply.encode (.setController .success) 0
    let link : Link := { pending := [.state s.encode, .reply granted, .closed] }
    let chosen := (start { link } {} default).setController .cartesianImpedance
    chosen.1.isOk = true ∧ chosen.2.lastState = some s ∧ chosen.2.link.pending = [.closed] := by
  decide +kernel

end Engine
end ArmControl
