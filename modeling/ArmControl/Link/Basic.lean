import ArmControl.Error
import ArmControl.Link.FarEnd

/-!
# The rehearsed link

A `Link` carries frames and datagrams between the client and a scripted far end.  What the far end
has said waits in `pending`; the client takes it off with `receive`, which never waits: an empty
queue is a timeout, or the end of the channel once the far end has closed it.

Everything that passes over the link is written into its journal, in order, so that a statement
about a run of the client is a statement about the journal.  `supply` bounds what can still reach
the client: sending does not change it, and receiving a message uses some of it up
(`sendRequest_supply`, `sendDatagram_supply`, `receive_length_lt`).
-/

namespace ArmControl

/-- What the journal of a link records. -/
inductive Entry
  /-- The client sent a request. -/
  | request (frame : Bytes)
  /-- The client could not send a request. -/
  | requestRefused (frame : Bytes)
  /-- The client sent a command. -/
  | command (datagram : Bytes)
  /-- The client could not send a command. -/
  | commandRefused (datagram : Bytes)
  /-- The far end said something, or did. -/
  | queued (said : Saying)
  /-- The client took the next event off the queue. -/
  | taken (event : Incoming)
  /-- The client found the queue empty and the far end gone. -/
  | drained
  /-- The client found the queue empty. -/
  | idle
  /-- The client found the link closed. -/
  | cut
deriving DecidableEq, Repr, Inhabited

/-- A link between the client and a scripted far end. -/
structure Link where
  farEnd : FarEnd := {}
  /-- What the far end has said and the client has not yet taken. -/
  pending : List Incoming := []
  /-- What has passed, the oldest entry first. -/
  journal : List Entry := []
  /-- The far end has closed the reliable channel. -/
  farClosed : Bool := false
  /-- The client has closed the link. -/
  closed : Bool := false
  /-- Somebody asked for the client's waits to end. -/
  shutdown : Bool := false

namespace Link

instance : Inhabited Link := ⟨{}⟩

/-- The port on which the client takes states. -/
def statePort : UInt16 := 40000

/-- How many events can still reach the client. -/
def supply (l : Link) : Nat := l.pending.length + l.farEnd.supply

def note (l : Link) (entry : Entry) : Link := { l with journal := l.journal ++ [entry] }

/-- Puts what the far end says into the queue, and sets the flags that it asks for. -/
def queue (l : Link) (said : Saying × FarEnd) : Link :=
  { l with
    farEnd := said.2
    pending := l.pending ++ said.1.events
    journal := l.journal ++ [.queued said.1]
    farClosed := l.farClosed || said.1.hangsUp
    shutdown := l.shutdown || said.1.interrupts }

/-- Sends a request frame. -/
def sendRequest (l : Link) (frame : Bytes) : Except LinkError Unit × Link :=
  if l.closed || l.farClosed then (.error .closed, l.note (.requestRefused frame))
  else (.ok (), (l.note (.request frame)).queue (l.farEnd.onRequest frame))

/-- Sends a command datagram. -/
def sendDatagram (l : Link) (datagram : Bytes) : Except LinkError Unit × Link :=
  if l.closed then (.error .closed, l.note (.commandRefused datagram))
  else (.ok (), (l.note (.command datagram)).queue (l.farEnd.onCommand datagram))

/-- Takes the next event. -/
def receive (l : Link) : Except LinkError Incoming × Link :=
  if l.closed || l.shutdown then (.error .closed, l.note .cut)
  else
    match l.pending with
    | event :: rest => (.ok event, { l with pending := rest }.note (.taken event))
    | [] => if l.farClosed then (.ok .closed, l.note .drained) else (.error .timeout, l.note .idle)

/-- Takes the next event if there is one. -/
def tryReceive (l : Link) : Except LinkError (Option Incoming) × Link :=
  match l.receive with
  | (.ok event, l) => (.ok (some event), l)
  | (.error .timeout, l) => (.ok none, l)
  | (.error err, l) => (.error err, l)

/-- Closes the link on the client's side. -/
def close (l : Link) : Link := { l with closed := true }

/-! ### What has passed -/

/-- The requests that the client sent. -/
def requests (l : Link) : List Bytes :=
  l.journal.filterMap fun
    | .request frame => some frame
    | _ => none

/-- The commands that the client sent. -/
def datagrams (l : Link) : List Bytes :=
  l.journal.filterMap fun
    | .command datagram => some datagram
    | _ => none

/-- The events that the client took off the queue. -/
def taken (l : Link) : List Incoming :=
  l.journal.filterMap fun
    | .taken event => some event
    | _ => none

/-! ### Supply -/

@[simp] theorem note_supply (l : Link) (entry : Entry) : (l.note entry).supply = l.supply := rfl

@[simp] theorem note_pending (l : Link) (entry : Entry) : (l.note entry).pending = l.pending := rfl

theorem sendRequest_supply (l : Link) (frame : Bytes) :
    (l.sendRequest frame).2.supply = l.supply := by
  unfold sendRequest
  split
  · rfl
  · have := l.farEnd.onRequest_supply frame
    simp only [queue, supply, note, List.length_append]
    omega

theorem sendDatagram_supply (l : Link) (datagram : Bytes) :
    (l.sendDatagram datagram).2.supply = l.supply := by
  unfold sendDatagram
  split
  · rfl
  · have := l.farEnd.onCommand_supply datagram
    simp only [queue, supply, note, List.length_append]
    omega

/-- What receiving does to the queue: a reply or a state was its head, anything else left it as it
was or took a `closed` off it. -/
theorem receive_pending {l l' : Link} {event : Incoming} (h : l.receive = (.ok event, l')) :
    l.pending = event :: l'.pending ∨ (event = .closed ∧ l'.pending = l.pending) := by
  unfold receive at h
  split at h
  · simp at h
  · split at h
    · rename_i e rest hp
      simp only [Prod.mk.injEq, Except.ok.injEq] at h
      obtain ⟨rfl, rfl⟩ := h
      exact .inl (by simpa using hp)
    · split at h
      · simp only [Prod.mk.injEq, Except.ok.injEq] at h
        obtain ⟨rfl, rfl⟩ := h
        exact .inr ⟨rfl, rfl⟩
      · simp at h

theorem receive_farEnd (l : Link) : l.receive.2.farEnd = l.farEnd := by
  unfold receive
  split
  · rfl
  · split
    · rfl
    · split <;> rfl

theorem receive_length_lt {l l' : Link} {event : Incoming} (h : l.receive = (.ok event, l'))
    (hne : event ≠ .closed) : l'.pending.length < l.pending.length := by
  rcases receive_pending h with hp | ⟨hc, _⟩
  · simp [hp]
  · exact absurd hc hne

end Link
end ArmControl
