import ArmControl.Proofs.Queue
import ArmControl.Proofs.Standing

/-! # The message that decides a cycle

A cycle takes messages off the queue up to the first one that is decisive (`Engine.Decisive`), and
leaves those behind it where they are.  What it passes over on the way, states that are stale and
replies that end nothing, is counted and at most puts the success of the motion in progress on
record (`Engine.overlooking`).  What the decisive message, or the end of the queue, makes of the
cycle is listed by `Engine.DecidedBy`.

`update_decided` puts this together for every engine that has no error to raise. -/

namespace ArmControl

/-! ### States and replies -/

namespace Motion

variable {m m' : Motion} {mode : MotionMode} {header : Header} {reply : Reply}

/-- A state with this mode contradicts the generator that is starting or running. -/
def Contradicted (m : Motion) (mode : MotionMode) : Prop :=
  m.status = .starting ∧ mode ≠ m.expected ∧ mode ≠ .idle ∨
    m.status = .running ∧ mode ≠ m.expected

/-- What is wrong with a state that contradicts the generator. -/
def contradiction (m : Motion) (mode : MotionMode) : MotionFault :=
  if m.status = .starting then .startedAsOther mode m.expected
  else .stoppedUnexpectedly m.expected mode

/-- The motion after a state that agrees with it: the generator that was starting runs, or the one
that was stopping is gone. -/
def follow (m : Motion) (mode : MotionMode) : Motion :=
  if m.status = .starting ∧ mode = m.expected then { m with status := .running }
  else if m.status = .stopping ∧ mode = .idle then m.reset
  else m

theorem observe_of_contradicted (h : m.Contradicted mode) :
    m.observe mode = (.error (.motion (m.contradiction mode)), m.reset) := by
  rcases h with ⟨hstatus, hexpected, hidle⟩ | ⟨hstatus, hexpected⟩
  · simp [observe, contradiction, hstatus, hexpected, hidle]
  · simp [observe, contradiction, hstatus, hexpected]

theorem observe_of_not_contradicted (h : ¬ m.Contradicted mode) :
    m.observe mode = (.ok (), m.follow mode) := by
  unfold Contradicted at h
  unfold observe follow
  cases hstatus : m.status with
  | notStarted => simp
  | starting =>
      by_cases hexpected : mode = m.expected
      · simp [hexpected]
      · have hidle : mode = .idle := by simpa [hstatus, hexpected] using h
        have hidle' : .idle ≠ m.expected := hidle ▸ hexpected
        simp [hidle, hidle']
  | running =>
      have hexpected : mode = m.expected := by simpa [hstatus] using h
      simp [hexpected]
  | stopping => by_cases hidle : mode = .idle <;> simp [hidle]

/-- A reply that ends the generator that is active, or the motion in progress. -/
def EndedBy (m : Motion) (header : Header) (reply : Reply) : Prop :=
  reply.Withdraws ∧ m.status ≠ .notStarted ∨
    ∃ status, status.isFailure ∧ reply = .move status ∧ m.current = some header.id

/-- The success of the motion in progress. -/
def SucceedsBy (m : Motion) (header : Header) (reply : Reply) : Prop :=
  reply = .move .success ∧ m.current = some header.id

instance (m : Motion) (header : Header) (reply : Reply) : Decidable (m.SucceedsBy header reply) :=
  inferInstanceAs (Decidable (_ ∧ _))

theorem handle_of_not_endedBy (h : ¬ m.EndedBy header reply) :
    m.handle header reply =
      (.ok (), if m.SucceedsBy header reply then { m with outcome := some .success } else m) := by
  rcases hhandle : m.handle header reply with ⟨result, m'⟩
  unfold EndedBy at h
  cases reply with
  | startMotion status =>
      have hnot : ¬ m.SucceedsBy header (.startMotion status) := fun hsucceeds => by
        cases hsucceeds.1
      rw [if_neg hnot, ← hhandle]
      cases status with
      | success => rfl
      | rejected | aborted =>
          have hstatus : m.status = .notStarted := by
            by_contra hne
            exact h (.inl ⟨⟨_, by decide, rfl⟩, hne⟩)
          simp [handle, hstatus]
  | move status =>
      rw [← hhandle]
      by_cases hcurrent : m.current = some header.id
      · have hfailure : ¬ status.isFailure := fun hfailure =>
          h (.inr ⟨status, hfailure, rfl, hcurrent⟩)
        by_cases hsuccess : status = .success <;>
          simp_all [handle, SucceedsBy]
      · simp [handle, SucceedsBy, hcurrent]
  | connect | stopMotion | setController | stopMove =>
      rw [← hhandle]
      simp [handle, SucceedsBy]

theorem handle_of_withdrawn {status : StartStatus} (h : status ≠ .success)
    (hactive : m.status ≠ .notStarted) :
    m.handle header (.startMotion status) = (.error (.motion (.withdrawn status)), m.reset) := by
  cases status with
  | success => exact absurd rfl h
  | rejected | aborted => simp [handle, hactive]

theorem handle_of_failed {status : MoveStatus} (h : status.isFailure)
    (hcurrent : m.current = some header.id) :
    m.handle header (.move status) =
      (.error (.motion (.aborted status)), { m.reset with current := none }) := by
  simp [handle, reset, h, hcurrent]

end Motion

namespace Engine

variable {e : Engine} {incoming : Incoming} {passed rest : List Incoming}

/-! ### What a cycle passes over -/

/-- The message decides a cycle that takes it: it is a newer state or the end of the channel, or it
cannot be read, or it is a reply that ends the generator or the motion. -/
def Decisive (e : Engine) : Incoming → Prop
  | .state datagram => ∀ s, State.decode datagram = .ok s → newerThan e.lastId s
  | .reply frame =>
    ∀ header reply, Reply.decode frame = .ok (header, reply) → e.motion.EndedBy header reply
  | .closed => True

/-- The message tells the success of the motion in progress. -/
def TellsSuccess (m : Motion) : Incoming → Bool
  | .reply frame =>
    match Reply.decode frame with
    | .ok (header, reply) => m.SucceedsBy header reply
    | .error _ => false
  | _ => false

/-- Counts a state that is stale, or a reply. -/
def countOverlooked (m : Metrics) : Incoming → Metrics
  | .state _ => m.countStale
  | .reply _ => m.countReply
  | .closed => m

/-- The engine after it has taken these messages and passed over them. -/
def overlooking (e : Engine) (passed : List Incoming) : Engine :=
  { e with
    session := { e.session with
      link := e.link.taking passed
      metrics := passed.foldl countOverlooked e.metrics }
    motion := { e.motion with
      outcome := if passed.any (TellsSuccess e.motion) then some .success else e.motion.outcome } }

@[simp] theorem overlooking_nil (e : Engine) : e.overlooking [] = e := by
  simp [overlooking, link, metrics]

theorem overlooking_cons (e : Engine) (incoming : Incoming) (passed : List Incoming) :
    e.overlooking (incoming :: passed) = (e.overlooking [incoming]).overlooking passed := by
  have htells : TellsSuccess (e.overlooking [incoming]).motion = TellsSuccess e.motion := rfl
  unfold overlooking at htells ⊢
  simp only [Engine.mk.injEq, Session.mk.injEq, Motion.mk.injEq, true_and, and_true]
  refine ⟨⟨e.link.taking_cons incoming passed, rfl⟩, ?_⟩
  rw [htells]
  by_cases hpassed : passed.any (TellsSuccess e.motion) <;> simp [hpassed]

theorem poll_of_not_decisive (hlistens : e.link.Listens)
    (hpending : e.link.pending = incoming :: rest) (h : ¬ e.Decisive incoming) :
    e.poll = (e.overlooking [incoming]).poll := by
  cases incoming with
  | state datagram =>
      simp only [Decisive, not_forall] at h
      obtain ⟨s, hdecode, hstale⟩ := h
      exact wait_stale hlistens hpending hdecode hstale
  | reply frame =>
      simp only [Decisive, not_forall] at h
      obtain ⟨header, reply, hdecode, hended⟩ := h
      have hoverlooking : e.overlooking [.reply frame] =
          ((e.taking (.reply frame)).count Metrics.countReply).withMotion
            (if e.motion.SucceedsBy header reply then { e.motion with outcome := some .success }
              else e.motion) := by
        by_cases hsucceeds : e.motion.SucceedsBy header reply <;>
          simp [overlooking, TellsSuccess, hdecode, hsucceeds] <;> rfl
      rw [poll, wait_reply hlistens hpending hdecode, hoverlooking]
      simp only [judgeState, Motion.handle_of_not_endedBy hended]
      rfl
  | closed => exact absurd trivial h

/-- What is not decisive makes no difference to a wait for a state but that it is overlooked. -/
theorem poll_overlooking (hlistens : e.link.Listens) (hpending : e.link.pending = passed ++ rest)
    (h : ∀ incoming ∈ passed, ¬ e.Decisive incoming) : e.poll = (e.overlooking passed).poll := by
  induction passed generalizing e with
  | nil => rw [overlooking_nil]
  | cons incoming passed ih =>
      have hrest : (e.overlooking [incoming]).link.pending = passed ++ rest :=
        Link.pending_taking [_] hpending
      calc e.poll = (e.overlooking [incoming]).poll :=
          poll_of_not_decisive hlistens hpending (h incoming List.mem_cons_self)
        _ = ((e.overlooking [incoming]).overlooking passed).poll :=
          ih (hlistens.taking _) hrest fun i hi => h i (List.mem_cons_of_mem _ hi)
        _ = (e.overlooking (incoming :: passed)).poll := by rw [← overlooking_cons]

/-! ### What decides a cycle -/

/-- What becomes of the engine `e` in a cycle that is decided at the front of this queue. -/
inductive DecidedBy (e : Engine) :
    List Incoming → Except SessionError (Option State) → Engine → Prop
  | broken {rest result e'} : BrokenOff (.ok none) e rest result e' → DecidedBy e rest result e'
  | agreeing {datagram s later} : State.decode datagram = .ok s → newerThan e.lastId s →
      ¬ e.motion.Contradicted s.motionMode →
      DecidedBy e (.state datagram :: later) (.ok (some s))
        (((e.taking (.state datagram)).accept s).withMotion (e.motion.follow s.motionMode))
  | contradicting {datagram s later} : State.decode datagram = .ok s → newerThan e.lastId s →
      e.motion.Contradicted s.motionMode →
      DecidedBy e (.state datagram :: later)
        (.error (.motion (e.motion.contradiction s.motionMode)))
        (((e.taking (.state datagram)).accept s).withMotion e.motion.reset)
  | withdrawn {frame header status later} :
      Reply.decode frame = .ok (header, .startMotion status) → status ≠ .success →
      e.motion.status ≠ .notStarted →
      DecidedBy e (.reply frame :: later) (.error (.motion (.withdrawn status)))
        (((e.taking (.reply frame)).count Metrics.countReply).withMotion e.motion.reset)
  | aborted {frame header status later} :
      Reply.decode frame = .ok (header, .move status) → status.isFailure →
      e.motion.current = some header.id →
      DecidedBy e (.reply frame :: later) (.error (.motion (.aborted status)))
        (((e.taking (.reply frame)).count Metrics.countReply).withMotion
          { e.motion.reset with current := none })

/-- Nothing behind the message that decides is taken. -/
theorem DecidedBy.pending {result : Except SessionError (Option State)} {e' : Engine}
    (h : DecidedBy e rest result e') (hpending : e.link.pending = rest) :
    e'.link.pending = rest.tail := by
  cases h with
  | broken hbroken => exact hbroken.pending hpending
  | agreeing | contradicting | withdrawn | aborted =>
      exact Link.pending_taking [_] hpending

theorem poll_of_state {datagram : Bytes} {s : State} (hlistens : e.link.Listens)
    (hpending : e.link.pending = .state datagram :: rest) (hdecode : State.decode datagram = .ok s)
    (hnewer : newerThan e.lastId s) :
    DecidedBy e (.state datagram :: rest) e.poll.1 e.poll.2 := by
  rw [poll, wait_state hlistens hpending hdecode hnewer]
  by_cases hcontradicted : e.motion.Contradicted s.motionMode
  · simp only [judgeState, Motion.observe_of_contradicted hcontradicted]
    exact .contradicting hdecode hnewer hcontradicted
  · simp only [judgeState, Motion.observe_of_not_contradicted hcontradicted]
    exact .agreeing hdecode hnewer hcontradicted

theorem poll_of_endedBy {frame : Bytes} {header : Header} {reply : Reply}
    (hlistens : e.link.Listens) (hpending : e.link.pending = .reply frame :: rest)
    (hdecode : Reply.decode frame = .ok (header, reply)) (hended : e.motion.EndedBy header reply) :
    DecidedBy e (.reply frame :: rest) e.poll.1 e.poll.2 := by
  rw [poll, wait_reply hlistens hpending hdecode]
  rcases hended with ⟨⟨status, hstatus, rfl⟩, hactive⟩ | ⟨status, hfailure, rfl, hcurrent⟩
  · simp only [judgeState, Motion.handle_of_withdrawn hstatus hactive]
    exact .withdrawn hdecode hstatus hactive
  · simp only [judgeState, Motion.handle_of_failed hfailure hcurrent]
    exact .aborted hdecode hfailure hcurrent

theorem poll_decided (hlistens : e.link.Listens) (hpending : e.link.pending = rest)
    (h : ∀ incoming ∈ rest.head?, e.Decisive incoming) : DecidedBy e rest e.poll.1 e.poll.2 := by
  by_cases hbreaks : ∀ incoming ∈ rest.head?, incoming.Breaks
  · exact .broken (wait_brokenOff judgeState (.ok none) hlistens hpending hbreaks)
  · rcases rest with _ | ⟨incoming, rest⟩
    · exact absurd (by simp) hbreaks
    · replace h : e.Decisive incoming := h incoming rfl
      replace hbreaks : ¬ incoming.Breaks := by simpa using hbreaks
      cases incoming with
      | closed => exact absurd trivial hbreaks
      | state datagram =>
          cases hdecode : State.decode datagram with
          | error err => exact absurd ⟨err, hdecode⟩ hbreaks
          | ok s => exact poll_of_state hlistens hpending hdecode (h s hdecode)
      | reply frame =>
          cases hdecode : Reply.decode frame with
          | error err => exact absurd ⟨err, hdecode⟩ hbreaks
          | ok decoded => exact poll_of_endedBy hlistens hpending hdecode (h _ _ hdecode)

/-! ### The cycle -/

/-- What a cycle does before it waits. -/
def opening (motion : Option MotionCommand) (torques : Option Torques) (e : Engine) :
    Except SessionError Unit × Engine :=
  if motion.isSome || torques.isSome || e.motion.status = .stopping then
    e.sendCommand motion torques
  else (.ok (), e)

theorem update_eq_opening (motion : Option MotionCommand) (torques : Option Torques)
    (hdeferred : e.motion.deferred = none) :
    e.update motion torques =
      match e.opening motion torques with
      | (.error err, e) => (.error err, e)
      | (.ok (), e) => e.poll := by
  simp only [update, opening, hdeferred]
  by_cases hsends : (motion.isSome || torques.isSome || e.motion.status = .stopping) = true
  · refine (if_pos hsends).trans ?_
    rcases e.sendCommand motion torques with ⟨_ | ⟨⟩, e'⟩ <;> simp only [if_pos hsends]
  · rw [if_neg hsends, if_neg hsends]

/-- A command can be sent unless the link is closed. -/
theorem opening_cases (motion : Option MotionCommand) (torques : Option Torques) (e : Engine) :
    (∃ e', e.opening motion torques = (.ok (), e')) ∨
    ∃ e', e.opening motion torques = (.error (.link .closed), e') ∧ ¬ e'.link.Listens := by
  unfold opening
  split
  · unfold sendCommand
    split
    · exact .inl ⟨e, rfl⟩
    · rename_i s _
      generalize compose s (e.motion.status = .stopping) e.motion.lastCommand motion torques = c
      simp only [Link.sendDatagram]
      generalize e.link.farEnd.onCommand c.encode = said
      cases hclosed : e.link.closed with
      | false => exact .inl ⟨_, rfl⟩
      | true => exact .inr ⟨_, rfl, fun hlistens => absurd (hlistens.1.symm.trans hclosed) (by decide)⟩
  · exact .inl ⟨e, rfl⟩

/-- On a link that listens once the command is sent, a cycle without an error to raise takes the queue
up to the first decisive message, as it is then, and that message or the end of the queue decides it.
On any other link it takes nothing. -/
theorem update_decided (motion : Option MotionCommand) (torques : Option Torques) (e : Engine)
    (hdeferred : e.motion.deferred = none) :
    let sent := (e.opening motion torques).2
    let result := (e.update motion torques).1
    let e' := (e.update motion torques).2
    (sent.link.Listens → (e.opening motion torques).1 = .ok () ∧
      ∃ passed rest, sent.link.pending = passed ++ rest ∧
        (∀ incoming ∈ passed, ¬ sent.Decisive incoming) ∧
        (∀ incoming ∈ rest.head?, sent.Decisive incoming) ∧
        DecidedBy (sent.overlooking passed) rest result e' ∧ e'.link.pending = rest.tail) ∧
    (¬ sent.link.Listens → result = .error (.link .closed) ∧
      (e' = sent ∨ e' = sent.withLink (sent.link.note .cut))) := by
  intro sent result e'
  have hupdate := update_eq_opening motion torques hdeferred
  rcases opening_cases motion torques e with ⟨e₁, hopening⟩ | ⟨e₁, hopening, hclosed⟩
  · obtain rfl : sent = e₁ := congrArg Prod.snd hopening
    rw [hopening] at hupdate
    replace hupdate : (result, e') = sent.poll := hupdate
    refine ⟨fun h => ⟨congrArg Prod.fst hopening, ?_⟩, fun h => ?_⟩
    · obtain ⟨passed, rest, hpending, hpassed, hrest⟩ :=
        exists_first sent.Decisive sent.link.pending
      have hthere : (sent.overlooking passed).link.pending = rest :=
        Link.pending_taking passed hpending
      have hdecided := poll_decided (e := sent.overlooking passed)
        (h.taking passed) hthere hrest
      rw [← poll_overlooking h hpending hpassed, ← hupdate] at hdecided
      exact ⟨passed, rest, hpending, hpassed, hrest, hdecided, hdecided.pending hthere⟩
    · rw [poll, wait_of_not_listens _ _ h] at hupdate
      obtain ⟨hresult, he'⟩ := Prod.mk.inj hupdate
      exact ⟨hresult, .inr he'⟩
  · obtain rfl : sent = e₁ := congrArg Prod.snd hopening
    rw [hopening] at hupdate
    obtain ⟨hresult, he'⟩ := Prod.mk.inj hupdate
    exact ⟨fun h => absurd h hclosed, fun _ => ⟨hresult, .inl he'⟩⟩

theorem update_decided_closed :
    let link : Link := { pending := [.state State.initial.encode, .closed, .closed] }
    let e := { Engine.start { link } {} default with lastState := some State.initial }
    e.motion.deferred = none ∧ e.link.Listens ∧
      ∃ passed rest, e.link.pending = passed ++ rest ∧
        (∀ incoming ∈ passed, ¬ e.Decisive incoming) ∧
        (∀ incoming ∈ rest.head?, e.Decisive incoming) ∧
        DecidedBy (e.overlooking passed) rest (e.update none none).1 (e.update none none).2 ∧
        (e.update none none).2.link.pending = rest.tail := by
  intro link e
  exact ⟨rfl, ⟨rfl, rfl⟩, ((update_decided none none e rfl).1 ⟨rfl, rfl⟩).2⟩

end Engine
end ArmControl
