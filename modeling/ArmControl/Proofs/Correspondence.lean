import ArmControl.Proofs.Deferral
import ArmControl.Proofs.Numbering
import ArmControl.Proofs.Postponement
import ArmControl.Proofs.Queue

/-! # Requests and their replies

A request takes the queue up to its own reply, the first one with its kind and its id, unless the
wait is broken off before.  All that it takes before is overheard: a cycle would make the same of it
(`Engine.Overhears`), but the errors cannot be raised, and the first of them is deferred, if none
was before.  `Engine.Exchanged` lists what can come of a request.

`requests_correspond` puts this together with how requests are numbered, and with how long an error
stays deferred. -/

namespace ArmControl

/-! ### What is overheard -/

namespace Motion

variable {m : Motion} {kind : FrameKind} {id : UInt32}

/-- The error that a cycle raises if its judge says this. -/
def raised : Option (Except SessionError (Option State)) → List SessionError
  | some (.error err) => [err]
  | _ => []

/-- The motion after something that a cycle would judge, with the error of that deferred. -/
def overhear (event : Event) (m : Motion) : Motion :=
  let (verdict, m) := Engine.judgeState event m
  { m with deferred := m.deferred <|> (raised verdict).head? }

/-- The errors that a cycle would raise because of something. -/
def offences (event : Event) (m : Motion) : List SessionError :=
  raised (Engine.judgeState event m).1

theorem overhear_deferred (event : Event) (m : Motion) :
    (m.overhear event).deferred = (m.deferred <|> (m.offences event).head?) := by
  simp only [overhear, offences, judgeState_deferred]

theorem judgeReply_state (s : State) :
    Engine.judgeReply kind id (.state s) m = (none, m.overhear (.state s)) := by
  rcases h : m.observe s.motionMode with ⟨_ | _, m'⟩ <;>
    simp [Engine.judgeReply, overhear, Engine.judgeState, h, defer, raised]

theorem judgeReply_of_other {header : Header} (reply : Reply)
    (hother : ¬ (header.kind = kind ∧ header.id = id)) :
    Engine.judgeReply kind id (.reply header reply) m =
      (none, m.overhear (.reply header reply)) := by
  rcases h : m.handle header reply with ⟨_ | _, m'⟩ <;>
    simp [Engine.judgeReply, hother, overhear, Engine.judgeState, h, defer, raised]

end Motion

namespace Engine

/-- The engine `e` becomes `e'` by what it makes of these messages while it waits for something
else, and the errors are those that cycles would have raised, in order. -/
inductive Overhears : Engine → List Incoming → List SessionError → Engine → Prop
  | nil (e) : Overhears e [] [] e
  | stale {e datagram s later errs e'} : State.decode datagram = .ok s → ¬ newerThan e.lastId s →
      Overhears ((e.taking (.state datagram)).count Metrics.countStale) later errs e' →
      Overhears e (.state datagram :: later) errs e'
  | state {e datagram s later errs e'} : State.decode datagram = .ok s → newerThan e.lastId s →
      Overhears (((e.taking (.state datagram)).accept s).withMotion (e.motion.overhear (.state s)))
        later errs e' →
      Overhears e (.state datagram :: later) (e.motion.offences (.state s) ++ errs) e'
  | reply {e frame header reply later errs e'} : Reply.decode frame = .ok (header, reply) →
      Overhears (((e.taking (.reply frame)).count Metrics.countReply).withMotion
        (e.motion.overhear (.reply header reply))) later errs e' →
      Overhears e (.reply frame :: later) (e.motion.offences (.reply header reply) ++ errs) e'

variable {e e' e₁ : Engine} {passed rest : List Incoming} {errs : List SessionError}

theorem Overhears.link (h : Overhears e passed errs e') : e'.link = e.link.taking passed := by
  induction h with
  | nil e => exact e.link.taking_nil.symm
  | stale _ _ _ ih | state _ _ _ ih | reply _ _ ih => exact ih.trans (Link.taking_cons _ _ _).symm

/-- Of the errors that arise the first one is kept, unless one was kept already. -/
theorem Overhears.deferred (h : Overhears e passed errs e') :
    e'.motion.deferred = (e.motion.deferred <|> errs.head?) := by
  induction h with
  | nil e => simp
  | stale _ _ _ ih => exact ih
  | state _ _ _ ih | reply _ _ ih =>
      rw [ih]
      simp only [withMotion, Motion.overhear_deferred, List.head?_append]
      cases Motion.deferred _ <;> simp

/-! ### The reply to a request -/

/-- The message concludes the wait for the reply with this kind and id: it is a reply with both, or
it breaks off the wait. -/
def Concludes (kind : FrameKind) (id : UInt32) : Incoming → Prop
  | .state datagram => Incoming.Breaks (.state datagram)
  | .reply frame =>
    ∀ header reply, Reply.decode frame = .ok (header, reply) → header.kind = kind ∧ header.id = id
  | .closed => True

/-- What becomes of the engine `e` when the wait for the reply with this kind and id is concluded at
the front of this queue. -/
inductive ConcludedBy (kind : FrameKind) (id : UInt32) (e : Engine) :
    List Incoming → Except SessionError Reply → Engine → Prop
  | answered {frame header reply later} : Reply.decode frame = .ok (header, reply) →
      header.kind = kind → header.id = id → reply.kind = kind →
      ConcludedBy kind id e (.reply frame :: later) (.ok reply)
        ((e.taking (.reply frame)).count Metrics.countReply)
  | broken {rest result e'} : BrokenOff (.error .closed) e rest result e' →
      ConcludedBy kind id e rest result e'

theorem ConcludedBy.deferred {kind : FrameKind} {id : UInt32} {result : Except SessionError Reply}
    (h : ConcludedBy kind id e rest result e') : e'.motion.deferred = e.motion.deferred := by
  cases h with
  | answered => rfl
  | broken hbroken => cases hbroken <;> rfl

theorem ConcludedBy.pending {kind : FrameKind} {id : UInt32}
    {result : Except SessionError Reply} (h : ConcludedBy kind id e rest result e')
    (hpending : e.link.pending = rest) : e'.link.pending = rest.tail := by
  cases h with
  | answered => exact Link.pending_taking [_] hpending
  | broken hbroken => exact hbroken.pending hpending

variable {kind : FrameKind} {id : UInt32} {incoming : Incoming}

/-- What does not conclude the wait for a reply is overheard. -/
theorem exists_overhears (e : Engine) (h : ∀ incoming ∈ passed, ¬ Concludes kind id incoming) :
    ∃ errs e₁, Overhears e passed errs e₁ := by
  induction passed generalizing e with
  | nil => exact ⟨[], e, .nil e⟩
  | cons incoming passed ih =>
      obtain ⟨hfirst, hrest⟩ := List.forall_mem_cons.1 h
      cases incoming with
      | state datagram =>
          cases hdecode : State.decode datagram with
          | error err => exact absurd ⟨err, hdecode⟩ hfirst
          | ok s =>
              by_cases hnewer : newerThan e.lastId s
              · obtain ⟨errs, e₁, hlater⟩ := ih (((e.taking (.state datagram)).accept s).withMotion
                  (e.motion.overhear (.state s))) hrest
                exact ⟨_, e₁, .state hdecode hnewer hlater⟩
              · obtain ⟨errs, e₁, hlater⟩ :=
                  ih ((e.taking (.state datagram)).count Metrics.countStale) hrest
                exact ⟨errs, e₁, .stale hdecode hnewer hlater⟩
      | reply frame =>
          simp only [Concludes, not_forall] at hfirst
          obtain ⟨header, reply, hdecode, -⟩ := hfirst
          obtain ⟨errs, e₁, hlater⟩ := ih (((e.taking (.reply frame)).count
            Metrics.countReply).withMotion (e.motion.overhear (.reply header reply))) hrest
          exact ⟨_, e₁, .reply hdecode hlater⟩
      | closed => exact absurd trivial hfirst

/-- A wait for a reply goes on behind what is overheard. -/
theorem awaitReply_of_overhears (h : Overhears e passed errs e') (hlistens : e.link.Listens)
    (hpending : e.link.pending = passed ++ rest)
    (hpassed : ∀ incoming ∈ passed, ¬ Concludes kind id incoming) :
    e.awaitReply kind id = e'.awaitReply kind id := by
  induction h with
  | nil e => rfl
  | @stale e datagram s later errs e' hdecode hstale _ ih =>
      have hwait : e.awaitReply kind id = _ := wait_stale hlistens hpending hdecode hstale
      rw [hwait]
      exact ih (hlistens.taking _) (Link.pending_taking [_] hpending)
        (List.forall_mem_cons.1 hpassed).2
  | @state e datagram s later errs e' hdecode hnewer _ ih =>
      have hwait : e.awaitReply kind id = _ := wait_state hlistens hpending hdecode hnewer
      rw [hwait, Motion.judgeReply_state]
      exact ih (hlistens.taking _) (Link.pending_taking [_] hpending)
        (List.forall_mem_cons.1 hpassed).2
  | @reply e frame header reply later errs e' hdecode _ ih =>
      have hother : ¬ (header.kind = kind ∧ header.id = id) := fun hboth =>
        hpassed _ List.mem_cons_self fun header' reply' hdecode' => by
          cases hdecode.symm.trans hdecode'
          exact hboth
      have hwait : e.awaitReply kind id = _ := wait_reply hlistens hpending hdecode
      rw [hwait, Motion.judgeReply_of_other reply hother]
      exact ih (hlistens.taking _) (Link.pending_taking [_] hpending)
        (List.forall_mem_cons.1 hpassed).2

/-- The wait for a reply is concluded at the front of the queue. -/
theorem awaitReply_concluded (hlistens : e.link.Listens) (hpending : e.link.pending = rest)
    (h : ∀ incoming ∈ rest.head?, Concludes kind id incoming) :
    ConcludedBy kind id e rest (e.awaitReply kind id).1 (e.awaitReply kind id).2 := by
  by_cases hbreaks : ∀ incoming ∈ rest.head?, incoming.Breaks
  · exact .broken (wait_brokenOff _ _ hlistens hpending hbreaks)
  · rcases rest with _ | ⟨incoming, rest⟩
    · exact absurd (by simp) hbreaks
    · replace h : Concludes kind id incoming := h incoming rfl
      replace hbreaks : ¬ incoming.Breaks := by simpa using hbreaks
      cases incoming with
      | state datagram => exact absurd h hbreaks
      | closed => exact absurd trivial hbreaks
      | reply frame =>
          cases hdecode : Reply.decode frame with
          | error err => exact absurd ⟨err, hdecode⟩ hbreaks
          | ok decoded =>
              obtain ⟨header, reply⟩ := decoded
              obtain ⟨hkind, hid⟩ := h header reply hdecode
              rw [awaitReply, wait_reply hlistens hpending hdecode]
              simp only [judgeReply, hkind, hid, and_self, if_true]
              exact .answered hdecode hkind hid ((Reply.kind_of_decode hdecode).trans hkind)

/-- What can come of a request.  If it cannot be sent or the link does not listen, it fails and
takes nothing.  Otherwise it takes the queue up to the message that concludes it; what comes before
is overheard, and the first error of that is deferred, if none was before. -/
inductive Exchanged (request : Request) (e : Engine) :
    Except SessionError (UInt32 × Reply) → Engine → Prop
  | refused {err session} : e.session.send request = (.error err, session) →
      Exchanged request e (.error (.link err)) { e with session }
  | unheard {session} : e.session.send request = (.ok e.session.nextId, session) →
      ¬ session.link.Listens →
      Exchanged request e (.error (.link .closed))
        { e with session := { session with link := session.link.note .cut } }
  | concluded {session passed rest errs overheard answer e'} :
      e.session.send request = (.ok e.session.nextId, session) →
      session.link.Listens →
      session.link.pending = passed ++ rest →
      (∀ incoming ∈ passed, ¬ Concludes request.kind e.session.nextId incoming) →
      (∀ incoming ∈ rest.head?, Concludes request.kind e.session.nextId incoming) →
      Overhears { e with session } passed errs overheard →
      ConcludedBy request.kind e.session.nextId overheard rest answer e' →
      e'.motion.deferred = (e.motion.deferred <|> errs.head?) →
      e'.link.pending = rest.tail →
      Exchanged request e (answer.map fun reply => (e.session.nextId, reply)) e'

theorem execute_exchanged (request : Request) (e : Engine) :
    Exchanged request e (e.execute request).1 (e.execute request).2 := by
  rcases hsend : e.session.send request with ⟨err | id, session⟩
  · simp only [execute, hsend]
    exact .refused hsend
  · obtain rfl : id = e.session.nextId := send_id hsend
    let sent : Engine := { e with session }
    let awaited := sent.awaitReply request.kind e.session.nextId
    have hexecute : e.execute request =
        (awaited.1.map fun reply => (e.session.nextId, reply), awaited.2) := by
      simp only [execute, hsend, awaited, sent]
      rcases awaitReply request.kind e.session.nextId { e with session } with ⟨_ | _, _⟩ <;> rfl
    rw [hexecute]
    by_cases hlistens : sent.link.Listens
    · obtain ⟨passed, rest, hpending, hpassed, hrest⟩ :=
        exists_first (Concludes request.kind e.session.nextId) sent.link.pending
      obtain ⟨errs, overheard, hoverhears⟩ := exists_overhears sent hpassed
      have hawait := awaitReply_of_overhears hoverhears hlistens hpending hpassed
      have hlink : overheard.link = sent.link.taking passed := hoverhears.link
      have hthere : overheard.link.pending = rest := hlink ▸ Link.pending_taking passed hpending
      have hconcluded := awaitReply_concluded (hlink ▸ hlistens.taking passed) hthere hrest
      rw [← hawait] at hconcluded
      change ConcludedBy _ _ _ _ awaited.1 awaited.2 at hconcluded
      exact .concluded hsend hlistens hpending hpassed hrest hoverhears hconcluded
        (hconcluded.deferred.trans hoverhears.deferred) (hconcluded.pending hthere)
    · have hwait : awaited = (.error (.link .closed), sent.withLink (sent.link.note .cut)) :=
        wait_of_not_listens _ _ hlistens
      rw [hwait]
      exact .unheard hsend hlistens

/-- The requests of a robot are numbered from 0 on, so those on record have strictly increasing ids
as long as the ids do not run out.  Each request of an engine takes what comes before its reply in
passing, and defers the first error of that.  The first call that begins with a cycle raises it,
once, and sends and receives nothing, unless a cancellation has dropped it before. -/
theorem requests_correspond :
    (∀ (start : Link) (settings : Settings) (clock : Clock) (agenda : Robot.Agenda),
      let r := (Robot.connect start settings clock).2.complete agenda
      let run : Journal := r.engine.link.since start
      ∃ requests : List Request,
        run.attempts = requests.mapIdx (fun n request => request.encode (.ofNat n)) ∧
        (requests.length < UInt32.size → ∃ recorded : List (UInt32 × Request),
          run.requests = recorded.map (fun p => p.2.encode p.1) ∧
            (recorded.map Prod.fst).Pairwise (· < ·))) ∧
    (∀ (request : Request) (e : Engine),
      Exchanged request e (e.execute request).1 (e.execute request).2) ∧
    ∀ (e : Engine) (err : SessionError) (turns : List Turn), e.motion.deferred = some err →
      (∀ before call later, turns = before ++ .call call :: later →
        ¬ (e.after before).Raises call ∧ ¬ (e.after before).Drops call) →
      let e₁ := e.after turns
      e₁.motion.deferred = some err ∧
      (∀ motion torques, e₁.update motion torques =
        (.error err, e₁.withMotion { e₁.motion with deferred := none })) ∧
      ∀ call, (e₁.Raises call → (e₁.perform call).1 = .error err ∧
          (e₁.perform call).2.motion.deferred = none ∧ ∃ m, (e₁.perform call).2 = e₁.withMotion m) ∧
        (e₁.Drops call → (e₁.perform call).2.motion.deferred = none) := by
  refine ⟨?numbering, execute_exchanged, ?deferral⟩
  case numbering =>
    intro start settings clock agenda r run
    obtain ⟨requests, hattempts⟩ := Robot.numbers start settings clock agenda
    exact ⟨requests, hattempts, fun hfew => Journal.sorted_requests hattempts (Nat.le_of_lt hfew)⟩
  case deferral =>
    intro e err turns hdeferred hturns e₁
    have hkept : e₁.motion.deferred = some err := after_deferred hdeferred turns hturns
    exact ⟨hkept, fun motion torques => update_of_deferred hkept,
      fun call => ⟨perform_of_raises hkept, perform_of_drops⟩⟩

theorem requests_correspond_interrupted :
    let e := (Engine.start { link := { farEnd := .interrupting } } {} default).after
      [.call (.startGenerator .jointPosition), .call (.setController .cartesianImpedance)]
    let err : SessionError := .motion (.stoppedUnexpectedly .jointPosition .idle)
    let e₁ := e.after [.call .stopGenerator]
    e.motion.deferred = some err ∧ e₁.motion.deferred = some err ∧
      e₁.update none none = (.error err, e₁.withMotion { e₁.motion with deferred := none }) := by
  intro e err e₁
  have hdeferred : e.motion.deferred = some err := by decide +kernel
  have hturns (before : List Turn) (call : Call) (later : List Turn)
      (h : [Turn.call .stopGenerator] = before ++ .call call :: later) :
      ¬ (e.after before).Raises call ∧ ¬ (e.after before).Drops call := by
    obtain ⟨rfl, rfl⟩ : before = [] ∧ call = .stopGenerator := by
      cases before <;> simp_all
    exact ⟨id, id⟩
  obtain ⟨hkept, hupdate, -⟩ := requests_correspond.2.2 e err _ hdeferred hturns
  exact ⟨hdeferred, hkept, hupdate none none⟩

end Engine
end ArmControl
