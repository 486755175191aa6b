import ArmControl.Link.Happening
import ArmControl.Proofs.Receiving

/-! # Silence

A rehearsed link and sockets are two ways to serve the same demands.  Once the client has closed its
link, every demand is refused, nothing leaves the link, and closing it again changes nothing.  The
same holds of sockets, but for one demand: closed sockets that have once learnt where datagrams go
still send them (`closed_channels`).  So the two agree just as long as no datagram is to be sent. -/

namespace ArmControl

/-! ### Demands -/

/-- What the client asks of its link or its sockets. -/
inductive Demand
  | receive
  | tryReceive
  | sendRequest (frame : Bytes)
  | sendDatagram (datagram : Bytes)
  | close
deriving DecidableEq, Repr

/-- What the client is told; `none` where there is nothing to tell. -/
abbrev Notice := Except LinkError (Option Incoming)

/-- A demand, and what the world does about it. -/
structure Occasion where
  demand : Demand
  /-- What happens before it. -/
  meanwhile : List Happening := []
  wakes : List Wake := []
  writes : List StreamWrite := []
  fate : DatagramWrite := .sent

namespace Occasion

/-- Somebody asks for the client's waits to end. -/
def interrupts (o : Occasion) : Bool :=
  o.meanwhile.any fun
    | .say cues => cues.any fun
      | .shutdown => true
      | _ => false
    | .rescript _ _ => false

/-- What the client is told after it has closed the channels: they are closed. -/
def refusal (o : Occasion) : Notice :=
  match o.demand with
  | .close => .ok none
  | _ => .error .closed

/-- What closed sockets tell the client, which know where datagrams go or do not. -/
def reply (peer : Option Peer) (o : Occasion) : Notice :=
  match o.demand, peer, o.fate with
  | .sendDatagram _, none, _ => .error .noPeer
  | .sendDatagram _, some _, .failed text => .error (.io text)
  | .sendDatagram _, some _, _ => .ok none
  | _, _, _ => o.refusal

/-- The datagram that leaves closed sockets, if one does. -/
def escaped (peer : Option Peer) (o : Occasion) : List (Peer × Bytes) :=
  match o.demand, peer, o.fate with
  | .sendDatagram datagram, some peer, .sent => [(peer, datagram)]
  | _, _, _ => []

/-- The client asks for a datagram to be sent. -/
def IsDatagram (o : Occasion) : Prop := ∃ datagram, o.demand = .sendDatagram datagram

theorem reply_eq_refusal_iff (peer : Option Peer) (o : Occasion) :
    o.reply peer = o.refusal ↔ ¬ o.IsDatagram := by
  obtain ⟨demand, meanwhile, wakes, writes, fate⟩ := o
  cases demand with
  | sendDatagram datagram =>
      refine iff_of_false ?_ (not_not_intro ⟨datagram, rfl⟩)
      cases peer <;> cases fate <;> exact nofun
  | receive | tryReceive | sendRequest | close => exact iff_of_true rfl nofun

end Occasion

/-- An answer without a wait: that nothing has come is not an error. -/
def Answer.ifAny : Answer → Notice
  | .ok event => .ok (some event)
  | .error .timeout => .ok none
  | .error err => .error err

/-- Of a demand to send, the client is told only whether it failed. -/
def Notice.sent (result : Except LinkError Unit) : Notice := result.map fun _ => none

/-- What a rehearsed link does when it is asked for something. -/
def Link.answer (o : Occasion) (l : Link) : Notice × Link :=
  match o.demand with
  | .receive => (l.receive.1.map some, l.receive.2)
  | .tryReceive => l.tryReceive
  | .sendRequest frame => (Notice.sent (l.sendRequest frame).1, (l.sendRequest frame).2)
  | .sendDatagram datagram => (Notice.sent (l.sendDatagram datagram).1, (l.sendDatagram datagram).2)
  | .close => (.ok none, l.close)

def Link.serve (o : Occasion) (l : Link) : Notice × Link := (l.witness o.meanwhile).answer o

/-- What sockets do when they are asked for something. -/
def Sockets.answer (o : Occasion) (s : Sockets) : Notice × Sockets :=
  match o.demand with
  | .receive => ((s.receive o.wakes).1.map some, (s.receive o.wakes).2.1)
  | .tryReceive => (Answer.ifAny (s.receive o.wakes).1, (s.receive o.wakes).2.1)
  | .sendRequest frame =>
    (Notice.sent (s.sendRequest o.writes frame).1, (s.sendRequest o.writes frame).2)
  | .sendDatagram datagram =>
    (Notice.sent (s.sendDatagram o.fate datagram).1, (s.sendDatagram o.fate datagram).2)
  | .close => (.ok none, s.close)

/-- What the far end does reaches sockets only when they are looked at. -/
def Sockets.serve (o : Occasion) (s : Sockets) : Notice × Sockets :=
  Sockets.answer o { s with shutdown := s.shutdown || o.interrupts }

/-- Serves one demand after the other. -/
def serveAll {σ : Type} (serve : Occasion → σ → Notice × σ) :
    List Occasion → σ → List Notice × σ
  | [], c => ([], c)
  | o :: later, c =>
    let (notice, c) := serve o c
    let (notices, c) := serveAll serve later c
    (notice :: notices, c)

/-! ### A closed link -/

namespace Link

variable {l l₁ l₂ : Link}

/-- Nothing has left the link since it was `l`, nor has the client closed or opened it. -/
structure Mute (l l' : Link) : Prop where
  closed : l'.closed = l.closed
  requests : l'.requests = l.requests
  datagrams : l'.datagrams = l.datagrams

namespace Mute

theorem refl (l : Link) : Mute l l := ⟨rfl, rfl, rfl⟩

theorem trans (h : Mute l l₁) (h' : Mute l₁ l₂) : Mute l l₂ :=
  ⟨h'.closed.trans h.closed, h'.requests.trans h.requests, h'.datagrams.trans h.datagrams⟩

theorem note {entry : Entry} (l : Link) (hrequest : ∀ frame, entry ≠ .request frame)
    (hcommand : ∀ datagram, entry ≠ .command datagram) : Mute l (l.note entry) where
  closed := rfl
  requests := by
    cases entry with
    | request frame => exact absurd rfl (hrequest frame)
    | _ => simp [Link.requests, Link.note]
  datagrams := by
    cases entry with
    | command datagram => exact absurd rfl (hcommand datagram)
    | _ => simp [Link.datagrams, Link.note]

end Mute

theorem happen_mute (l : Link) (h : Happening) : Mute l (l.happen h) := by
  cases h with
  | say cues =>
      refine ⟨rfl, ?_, ?_⟩
      · simp [requests, happen, queue]
      · simp [datagrams, happen, queue]
  | rescript => exact ⟨rfl, rfl, rfl⟩

theorem witness_mute (l : Link) (hs : List Happening) : Mute l (l.witness hs) := by
  induction hs generalizing l with
  | nil => exact .refl l
  | cons h rest ih => exact (l.happen_mute h).trans (ih (l.happen h))

/-- A closed link refuses whatever it is asked for. -/
theorem answer_of_closed (h : l.closed = true) (o : Occasion) :
    (l.answer o).1 = o.refusal ∧ Mute l (l.answer o).2 := by
  have hcut : l.receive = (.error .closed, l.note .cut) := if_pos (by rw [h, Bool.true_or])
  unfold answer Occasion.refusal
  cases o.demand with
  | receive =>
      simp only [hcut]
      exact ⟨rfl, .note l nofun nofun⟩
  | tryReceive =>
      have htry : l.tryReceive = (.error .closed, l.note .cut) := by
        unfold tryReceive
        rw [hcut]
      dsimp only
      rw [htry]
      exact ⟨rfl, .note l nofun nofun⟩
  | sendRequest frame =>
      have hrefused : l.sendRequest frame = (.error .closed, l.note (.requestRefused frame)) :=
        if_pos (by rw [h, Bool.true_or])
      simp only [hrefused]
      exact ⟨rfl, .note l nofun nofun⟩
  | sendDatagram datagram =>
      have hrefused : l.sendDatagram datagram =
          (.error .closed, l.note (.commandRefused datagram)) := if_pos h
      simp only [hrefused]
      exact ⟨rfl, .note l nofun nofun⟩
  | close => exact ⟨rfl, ⟨h.symm, rfl, rfl⟩⟩

theorem serveAll_of_closed (h : l.closed = true) (occasions : List Occasion) :
    (serveAll serve occasions l).1 = occasions.map Occasion.refusal ∧
      Mute l (serveAll serve occasions l).2 := by
  induction occasions generalizing l with
  | nil => exact ⟨rfl, .refl l⟩
  | cons o later ih =>
      have hmute := l.witness_mute o.meanwhile
      obtain ⟨hrefused, hanswer⟩ := answer_of_closed (hmute.closed.trans h) o
      have hserve : Mute l (l.serve o).2 := hmute.trans hanswer
      obtain ⟨hlater, hmuteLater⟩ := ih (hserve.closed.trans h)
      refine ⟨?_, hserve.trans hmuteLater⟩
      rw [List.map_cons, ← hrefused, ← hlater]
      rfl

end Link

/-! ### Closed sockets -/

namespace Sockets

variable {s : Sockets}

/-- Closed sockets refuse whatever they are asked for, unless it is to send a datagram. -/
theorem answer_of_closed (h : s.closed = true) (o : Occasion) :
    s.answer o = (o.reply s.peer, { s with sent := s.sent ++ o.escaped s.peer }) := by
  have hcut : s.receive o.wakes = (.error .closed, s, o.wakes) := by
    rw [receive.eq_def]
    exact if_pos (by rw [h, Bool.true_or])
  have hsame : { s with sent := s.sent ++ [] } = s := by rw [List.append_nil]
  unfold answer Occasion.reply Occasion.escaped Occasion.refusal
  cases o.demand with
  | receive | tryReceive =>
      simp only [hcut, hsame]
      rfl
  | sendRequest frame =>
      have hrefused : s.sendRequest o.writes frame = (.error .closed, s) :=
        if_pos (by rw [h, Bool.true_or])
      simp only [hrefused, hsame]
      rfl
  | sendDatagram datagram =>
      -- here alone nothing asks whether the sockets are closed
      unfold sendDatagram
      rcases s with ⟨pending, unframed, _ | peer, written, sent, farClosed, closed, shutdown⟩
      · simp only [List.append_nil]
        rfl
      · rcases o.fate with _ | _ | text
        · rfl
        · simp only [List.append_nil]
          rfl
        · simp only [List.append_nil]
          rfl
  | close =>
      simp only [hsame, close]
      rw [← h]

/-- What becomes of closed sockets. -/
theorem serveAll_of_closed (h : s.closed = true) (occasions : List Occasion) :
    serveAll serve occasions s = (occasions.map (Occasion.reply s.peer),
      { s with
        sent := s.sent ++ occasions.flatMap (Occasion.escaped s.peer)
        shutdown := s.shutdown || occasions.any Occasion.interrupts }) := by
  induction occasions generalizing s with
  | nil => simp [serveAll]
  | cons o later ih =>
      have hserve : s.serve o = (o.reply s.peer, { s with
          sent := s.sent ++ o.escaped s.peer, shutdown := s.shutdown || o.interrupts }) :=
        answer_of_closed (s := { s with shutdown := s.shutdown || o.interrupts }) h o
      have hlater := ih (s := (s.serve o).2) (by rw [hserve]; exact h)
      rw [hserve] at hlater
      simp only [serveAll, hserve, hlater, List.map_cons, List.flatMap_cons, List.any_cons,
        List.append_assoc, Bool.or_assoc]

end Sockets

/-- Let the client close a link and sockets on which anything may have passed, and then let it and
the world do what they will.  The link refuses every demand, and nothing leaves it.  The sockets
refuse every demand but those to send a datagram, and write nothing, but a datagram leaves them if
the client has learnt where datagrams go.  Closing either of them again changes nothing.  So they
tell the client the same just if it asks for no datagram to be sent. -/
theorem closed_channels (l : Link) (s : Sockets) (occasions : List Occasion) :
    let (told, l') := serveAll Link.serve occasions l.close
    let (told', s') := serveAll Sockets.serve occasions s.close
    (told = occasions.map Occasion.refusal ∧ l'.requests = l.requests ∧
      l'.datagrams = l.datagrams ∧ l'.close = l') ∧
    (told' = occasions.map (Occasion.reply s.peer) ∧
      s' = { s with
        closed := true
        sent := s.sent ++ occasions.flatMap (Occasion.escaped s.peer)
        shutdown := s.shutdown || occasions.any Occasion.interrupts } ∧
      s'.close = s') ∧
    (told' = told ↔ ∀ o ∈ occasions, ¬ o.IsDatagram) := by
  obtain ⟨htold, hmute⟩ := Link.serveAll_of_closed (l := l.close) rfl occasions
  have hsockets := Sockets.serveAll_of_closed (s := s.close) rfl occasions
  have hclosed : (serveAll Link.serve occasions l.close).2.closed = true := hmute.closed
  rw [hsockets]
  refine ⟨⟨htold, hmute.requests, hmute.datagrams, ?_⟩, ⟨rfl, rfl, rfl⟩, ?_⟩
  · rw [Link.close, ← hclosed]
  · rw [htold]
    simp only [List.map_inj_left]
    exact forall₂_congr fun o _ => o.reply_eq_refusal_iff s.peer

/-- A state arrives, the client closes its channels and then sends a datagram. -/
def lateDatagram : List Occasion :=
  [{ demand := .receive
     meanwhile := [.say [.rawState [1]]]
     wakes := [.news none [.datagram 0 [1]]] },
   { demand := .close },
   { demand := .sendDatagram [2] }]

/-- The closed link refuses the datagram, and the closed sockets send it. -/
theorem datagram_from_closed_sockets :
    let (told, l) := serveAll Link.serve lateDatagram {}
    let (told', s) := serveAll Sockets.serve lateDatagram {}
    told = [.ok (some (.state [1])), .ok none, .error .closed] ∧ l.datagrams = [] ∧
      told' = [.ok (some (.state [1])), .ok none, .ok none] ∧ s.sent = [(0, [2])] :=
  ⟨rfl, rfl, rfl, rfl⟩

end ArmControl
