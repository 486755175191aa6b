import ArmControl.Proofs.Moments
import ArmControl.Proofs.Thinning

/-! # Waits along the queue

On a link that `Listens` a wait goes along the queue from its front.  The next message is a state
that is stale (`wait_stale`) or newer (`wait_state`), or a reply (`wait_reply`), or else it breaks
off the wait, as the end of the queue does: `BrokenOff` lists how (`wait_brokenOff`).

Where it is known which messages decide, the queue is split before the first of them
(`exists_first`), and a statement about a wait is one about the messages before it, by induction,
and one about this message. -/

namespace ArmControl

/-- Every list is a stretch without `p`, and then nothing or an element with `p`. -/
theorem exists_first {α : Type} (p : α → Prop) (l : List α) :
    ∃ a b, l = a ++ b ∧ (∀ x ∈ a, ¬ p x) ∧ ∀ x ∈ b.head?, p x := by
  induction l with
  | nil => exact ⟨[], [], rfl, by simp, by simp⟩
  | cons x l ih =>
      by_cases hx : p x
      · exact ⟨[], x :: l, rfl, by simp, by simpa using hx⟩
      · obtain ⟨a, b, rfl, ha, hb⟩ := ih
        exact ⟨x :: a, b, rfl, by simpa using ⟨hx, ha⟩, hb⟩

/-- The message breaks off every wait: it cannot be read, or it is the end of the channel. -/
def Incoming.Breaks : Incoming → Prop
  | state datagram => ∃ err, State.decode datagram = .error err
  | reply frame => ∃ err, Reply.decode frame = .error err
  | closed => True

/-! ### The queue of a link -/

namespace Link

/-- The link gives its client what is pending. -/
def Listens (l : Link) : Prop := l.closed = false ∧ l.shutdown = false

/-- The link after these messages have been taken off its queue. -/
def taking (l : Link) (messages : List Incoming) : Link :=
  { l with
    pending := l.pending.drop messages.length
    journal := l.journal ++ messages.map .taken }

variable {l : Link} {incoming : Incoming} {rest : List Incoming}

@[simp] theorem taking_nil (l : Link) : l.taking [] = l := by simp [taking]

theorem taking_append (l : Link) (a b : List Incoming) :
    (l.taking a).taking b = l.taking (a ++ b) := by
  simp [taking]

theorem taking_cons (l : Link) (incoming : Incoming) (messages : List Incoming) :
    l.taking (incoming :: messages) = (l.taking [incoming]).taking messages :=
  (l.taking_append [incoming] messages).symm

theorem pending_taking (messages : List Incoming) (h : l.pending = messages ++ rest) :
    (l.taking messages).pending = rest := by
  simp [taking, h]

theorem Listens.taking (h : l.Listens) (messages : List Incoming) : (l.taking messages).Listens := h

theorem Listens.receive (h : l.Listens) (hpending : l.pending = incoming :: rest) :
    l.receive = (.ok incoming, l.taking [incoming]) := by
  rw [receive_of_pending (by rw [h.1, h.2]; rfl) hpending, take, Link.taking, hpending]
  rfl

theorem Listens.receive_nil (h : l.Listens) (hpending : l.pending = []) :
    l.receive =
      if l.farClosed then (.ok .closed, l.note .drained) else (.error .timeout, l.note .idle) := by
  simp [Link.receive, h.1, h.2, hpending]

theorem receive_of_not_listens (h : ¬ l.Listens) : l.receive = (.error .closed, l.note .cut) := by
  have hor : (l.closed || l.shutdown) = true := by
    by_contra hne
    exact h (by simpa [Listens] using hne)
  simp [receive, hor]

end Link

/-! ### The next message of a wait -/

namespace Engine

/-- The engine after it has taken the message off its link, and nothing else. -/
def taking (e : Engine) (incoming : Incoming) : Engine := e.withLink (e.link.taking [incoming])

variable {e : Engine} {rest : List Incoming} {datagram frame : Bytes} {s : State}
  {header : Header} {reply : Reply}

theorem intake_stale (hdecode : State.decode datagram = .ok s) (hstale : ¬ newerThan e.lastId s) :
    e.intake (.state datagram) = (.ok .stale, e.count Metrics.countStale) := by
  rw [← isFresh_eq] at hstale
  simp [intake, hdecode, hstale]

theorem intake_state (hdecode : State.decode datagram = .ok s) (hnewer : newerThan e.lastId s) :
    e.intake (.state datagram) = (.ok (.event (.state s)), e.accept s) := by
  rw [← isFresh_eq] at hnewer
  simp [intake, hdecode, hnewer]

theorem intake_reply (hdecode : Reply.decode frame = .ok (header, reply)) :
    e.intake (.reply frame) = (.ok (.event (.reply header reply)), e.count Metrics.countReply) := by
  simp [intake, hdecode]

variable {α : Type} {judge : Judge α} {ended : Except SessionError α}

theorem wait_of_not_listens (judge : Judge α) (ended : Except SessionError α)
    (h : ¬ e.link.Listens) :
    e.wait judge ended = (.error (.link .closed), e.withLink (e.link.note .cut)) := by
  rw [wait_eq, Link.receive_of_not_listens h]
  rfl

theorem wait_stale (hlistens : e.link.Listens) (hpending : e.link.pending = .state datagram :: rest)
    (hdecode : State.decode datagram = .ok s) (hstale : ¬ newerThan e.lastId s) :
    e.wait judge ended =
      ((e.taking (.state datagram)).count Metrics.countStale).wait judge ended := by
  have hintake := intake_stale (e := e.taking (.state datagram)) hdecode hstale
  rw [taking] at hintake
  rw [wait_eq, hlistens.receive hpending]
  simp only [hintake]
  rfl

theorem wait_state (hlistens : e.link.Listens) (hpending : e.link.pending = .state datagram :: rest)
    (hdecode : State.decode datagram = .ok s) (hnewer : newerThan e.lastId s) :
    e.wait judge ended =
      match judge (.state s) e.motion with
      | (some result, m) => (result, ((e.taking (.state datagram)).accept s).withMotion m)
      | (none, m) => (((e.taking (.state datagram)).accept s).withMotion m).wait judge ended := by
  have hintake := intake_state (e := e.taking (.state datagram)) hdecode hnewer
  rw [taking] at hintake
  rw [wait_eq, hlistens.receive hpending]
  simp only [hintake]
  rfl

theorem wait_reply (hlistens : e.link.Listens) (hpending : e.link.pending = .reply frame :: rest)
    (hdecode : Reply.decode frame = .ok (header, reply)) :
    e.wait judge ended =
      match judge (.reply header reply) e.motion with
      | (some result, m) =>
        (result, ((e.taking (.reply frame)).count Metrics.countReply).withMotion m)
      | (none, m) =>
        (((e.taking (.reply frame)).count Metrics.countReply).withMotion m).wait judge ended := by
  have hintake := intake_reply (e := e.taking (.reply frame)) hdecode
  rw [taking] at hintake
  rw [wait_eq, hlistens.receive hpending]
  simp only [hintake]
  rfl

/-- How a wait of the engine `e` breaks off at the front of this queue. -/
inductive BrokenOff (ended : Except SessionError α) (e : Engine) :
    List Incoming → Except SessionError α → Engine → Prop
  | starved : e.link.farClosed = false →
      BrokenOff ended e [] (.error (.link .timeout))
        ((e.withLink (e.link.note .idle)).count Metrics.countTimeout)
  | drained : e.link.farClosed = true →
      BrokenOff ended e [] ended (e.withLink (e.link.note .drained))
  | closed {later} : BrokenOff ended e (.closed :: later) ended (e.taking .closed)
  | state {datagram err later} : State.decode datagram = .error err →
      BrokenOff ended e (.state datagram :: later) (.error (.wire err)) (e.taking (.state datagram))
  | reply {frame err later} : Reply.decode frame = .error err →
      BrokenOff ended e (.reply frame :: later) (.error (.wire err))
        ((e.taking (.reply frame)).count Metrics.countReply)

theorem wait_brokenOff (judge : Judge α) (ended : Except SessionError α)
    (hlistens : e.link.Listens) (hpending : e.link.pending = rest)
    (h : ∀ incoming ∈ rest.head?, incoming.Breaks) :
    BrokenOff ended e rest (e.wait judge ended).1 (e.wait judge ended).2 := by
  rw [wait_eq]
  rcases rest with _ | ⟨incoming, rest⟩
  · rw [hlistens.receive_nil hpending]
    cases hfar : e.link.farClosed with
    | false => exact .starved hfar
    | true => exact .drained hfar
  · rw [hlistens.receive hpending]
    replace h : incoming.Breaks := h incoming rfl
    cases incoming with
    | closed => exact .closed
    | state datagram =>
        obtain ⟨err, hdecode⟩ := h
        simp only [intake, hdecode]
        exact .state hdecode
    | reply frame =>
        obtain ⟨err, hdecode⟩ := h
        simp only [intake, hdecode]
        exact .reply hdecode

/-- Nothing is taken behind the message that breaks off a wait. -/
theorem BrokenOff.pending {result : Except SessionError α} {e' : Engine}
    (h : BrokenOff ended e rest result e') (hpending : e.link.pending = rest) :
    e'.link.pending = rest.tail := by
  cases h with
  | starved | drained => exact hpending
  | closed | state | reply => exact Link.pending_taking [_] hpending

end Engine
end ArmControl
