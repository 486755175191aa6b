import ArmControl.Frame.Request
import ArmControl.Proofs.Receiving

/-! # The stream of requests

A request is written to the stream piece by piece, and the writing may break off at any byte.  Then
the part of the frame that was written stays there, and the request fails (`Sending.Fair`).  So the
stream is made up of what the requests have left, in order: whole frames of those that were sent,
and parts of frames of those that failed (`request_stream`).

Nothing remembers that a frame was broken off.  As long as neither side has closed the channel, the
next request is written right behind, where the far end takes it for the rest of the broken one. -/

namespace ArmControl
namespace Sockets

variable {s : Sockets} {frame : Bytes}

/-! ### One request -/

/-- What has become of a request. -/
structure Sending where
  frame : Bytes
  /-- What was written of the frame. -/
  piece : Bytes
  result : Except LinkError Unit

namespace Sending

/-- The request was sent. -/
def Sent (x : Sending) : Prop := x.result = .ok ()

/-- The front of the frame was written, and then no more. -/
def BrokenOff (x : Sending) : Prop := ¬ x.Sent ∧ x.piece ≠ []

/-- The whole frame was written if the request was sent, and else nothing or not all of it. -/
structure Fair (x : Sending) : Prop where
  whole : x.Sent → x.piece = x.frame
  part : ¬ x.Sent → x.piece <+: x.frame ∧ (x.piece = x.frame → x.piece = [])

end Sending

/-- What is written goes behind what was there.  It is a front of the bytes, and all of them just if
the writing succeeds. -/
theorem write_eq (writes : List StreamWrite) (bytes : Bytes) (s : Sockets) :
    ∃ piece rest, bytes = piece ++ rest ∧
      (s.write writes bytes).2 = { s with written := s.written ++ piece } ∧
      ((s.write writes bytes).1 = .ok () ↔ rest = []) := by
  fun_induction write writes bytes s with
  | case1 writes s => exact ⟨[], [], rfl, by rw [List.append_nil], by simp⟩
  | case2 bytes s => exact ⟨bytes, [], (List.append_nil _).symm, rfl, by simp⟩
  | case3 rest b bytes s => exact ⟨[], b :: bytes, rfl, by rw [List.append_nil], by simp⟩
  | case4 n rest b bytes s ih =>
      obtain ⟨piece, behind, hbytes, hwritten, hresult⟩ := ih
      refine ⟨(b :: bytes).take (n + 1) ++ piece, behind, ?_, ?_, hresult⟩
      · rw [List.append_assoc, ← hbytes, List.take_append_drop]
      · rw [hwritten, List.append_assoc]
  | case5 rest b bytes s => exact ⟨[], b :: bytes, rfl, by rw [List.append_nil], by simp⟩
  | case6 rest b bytes s late hlate ih => exact ih
  | case7 rest b bytes s ih => exact ih
  | case8 text rest b bytes s => exact ⟨[], b :: bytes, rfl, by rw [List.append_nil], by simp⟩

/-- What a request leaves on the stream. -/
theorem sendRequest_eq (writes : List StreamWrite) (frame : Bytes) (s : Sockets) :
    ∃ piece, (s.sendRequest writes frame).2 = { s with written := s.written ++ piece } ∧
      Sending.Fair ⟨frame, piece, (s.sendRequest writes frame).1⟩ := by
  unfold sendRequest
  split
  · exact ⟨[], by rw [List.append_nil], nofun, fun _ => ⟨List.nil_prefix, fun _ => rfl⟩⟩
  · obtain ⟨piece, rest, rfl, hwritten, hresult⟩ := write_eq writes frame s
    refine ⟨piece, hwritten, fun hsent => ?_, fun hfailed => ?_⟩
    · rw [hresult.1 hsent, List.append_nil]
    · refine ⟨List.prefix_append .., fun hall => ?_⟩
      exact absurd (hresult.2 (List.self_eq_append_right.1 hall)) hfailed

/-- As long as the channel is open, nothing that stands on the stream keeps a request from being
written. -/
theorem sendRequest_of_open (h : s.closed = false) (hopen : s.farClosed = false) (frame : Bytes) :
    s.sendRequest [] frame = (.ok (), { s with written := s.written ++ frame }) := by
  have hguard : (s.closed || s.farClosed) = false := by rw [h, hopen]; rfl
  rw [sendRequest, hguard, if_neg Bool.false_ne_true]
  cases frame with
  | nil => rw [write, List.append_nil]
  | cons b bytes => rw [write]; nofun

/-! ### One request after the other -/

/-- What the client does with the sockets. -/
inductive Turn
  /-- It sends a request; what the host does with the bytes. -/
  | send (writes : List StreamWrite) (frame : Bytes)
  | receive (wakes : List Wake)
  | close

/-- Takes turns on the sockets; gives what has become of the requests. -/
def takeTurns : List Turn → Sockets → List Sending × Sockets
  | [], s => ([], s)
  | .send writes frame :: later, s =>
    let (result, s') := s.sendRequest writes frame
    let (sendings, s'') := takeTurns later s'
    (⟨frame, s'.written.drop s.written.length, result⟩ :: sendings, s'')
  | .receive wakes :: later, s => takeTurns later (s.receive wakes).2.1
  | .close :: later, s => takeTurns later s.close

namespace Sending

/-- The frames of the requests that were sent. -/
def sentFrames : List Sending → List Bytes
  | [] => []
  | ⟨frame, _, .ok ()⟩ :: later => frame :: sentFrames later
  | ⟨_, _, .error _⟩ :: later => sentFrames later

/-- All that was written. -/
def pieces (sendings : List Sending) : Bytes := (sendings.map piece).flatten

/-- Nothing is written behind a frame that was broken off. -/
def Stops (sendings : List Sending) : Prop :=
  sendings.Pairwise fun x y => x.BrokenOff → y.piece = []

/-- The frames of the requests that were sent, and at most one that was broken off, behind which
nothing is written. -/
def Framed (sendings : List Sending) : Prop :=
  (∃ part, pieces sendings = (sentFrames sendings).flatten ++ part ∧
    (part = [] ∨ ∃ x ∈ sendings, x.BrokenOff ∧ part = x.piece)) ∧ Stops sendings

variable {x : Sending} {sendings later : List Sending}

theorem sentFrames_of_sent (h : x.Sent) :
    sentFrames (x :: later) = x.frame :: sentFrames later := by
  obtain ⟨frame, piece, result⟩ := x
  obtain rfl : result = .ok () := h
  rfl

theorem sentFrames_of_not_sent (h : ¬ x.Sent) : sentFrames (x :: later) = sentFrames later := by
  obtain ⟨frame, piece, err | _⟩ := x
  · rfl
  · exact absurd rfl h

/-- Where nothing was written, nothing was sent either. -/
theorem nothing_of_pieces (hfair : ∀ x ∈ sendings, x.Fair) (h : ∀ x ∈ sendings, x.piece = []) :
    pieces sendings = [] ∧ (sentFrames sendings).flatten = [] := by
  induction sendings with
  | nil => exact ⟨rfl, rfl⟩
  | cons x later ih =>
      obtain ⟨hx, hlater⟩ := List.forall_mem_cons.1 h
      obtain ⟨hfairx, hfairLater⟩ := List.forall_mem_cons.1 hfair
      obtain ⟨hpieces, hframes⟩ := ih hfairLater hlater
      refine ⟨(congrArg (· ++ pieces later) hx).trans hpieces, ?_⟩
      by_cases hsent : x.Sent
      · rw [sentFrames_of_sent hsent, List.flatten_cons, hframes, ← hfairx.whole hsent, hx]
        rfl
      · rw [sentFrames_of_not_sent hsent, hframes]

/-- The stream is framed just if the client stops writing behind a broken frame. -/
theorem framed_iff (hfair : ∀ x ∈ sendings, x.Fair) : Framed sendings ↔ Stops sendings := by
  refine ⟨And.right, fun hstops => ⟨?_, hstops⟩⟩
  induction sendings with
  | nil => exact ⟨[], rfl, .inl rfl⟩
  | cons x later ih =>
      obtain ⟨hx, hlater⟩ := List.pairwise_cons.1 hstops
      obtain ⟨hfairx, hfairLater⟩ := List.forall_mem_cons.1 hfair
      obtain ⟨part, hpieces, hpart⟩ := ih hfairLater hlater
      have hcons : pieces (x :: later) = x.piece ++ pieces later := rfl
      have hmem : (∃ y ∈ later, y.BrokenOff ∧ part = y.piece) →
          ∃ y ∈ x :: later, y.BrokenOff ∧ part = y.piece :=
        fun ⟨y, hy, hbroken⟩ => ⟨y, List.mem_cons_of_mem _ hy, hbroken⟩
      by_cases hsent : x.Sent
      · refine ⟨part, ?_, hpart.imp_right hmem⟩
        rw [hcons, hpieces, sentFrames_of_sent hsent, hfairx.whole hsent, List.flatten_cons,
          List.append_assoc]
      · by_cases hpiece : x.piece = []
        · refine ⟨part, ?_, hpart.imp_right hmem⟩
          rw [hcons, hpiece, sentFrames_of_not_sent hsent, hpieces]
          rfl
        · -- nothing follows
          obtain ⟨hnothing, hframes⟩ :=
            nothing_of_pieces hfairLater fun y hy => hx y hy ⟨hsent, hpiece⟩
          refine ⟨x.piece, ?_, .inr ⟨x, List.mem_cons_self, ⟨hsent, hpiece⟩, rfl⟩⟩
          rw [hcons, hnothing, sentFrames_of_not_sent hsent, hframes, List.append_nil]
          rfl

end Sending

/-- What was closed stays closed. -/
theorem receive_shut (h : (s.closed || s.farClosed) = true) (wakes : List Wake) :
    ((s.receive wakes).2.1.closed || (s.receive wakes).2.1.farClosed) = true := by
  by_cases hguard : (s.closed || s.shutdown) = true
  · have hsame : s.receive wakes = (.error .closed, s, wakes) := by
      rw [receive.eq_def]
      exact if_pos hguard
    rwa [hsame]
  · obtain ⟨hclosed, hshutdown⟩ := Bool.or_eq_false_iff.1 (Bool.eq_false_iff.2 hguard)
    have hend : s.farClosed = true := by rwa [hclosed, Bool.false_or] at h
    rcases hpending : s.pending with _ | ⟨event, rest⟩
    · rwa [receive_of_farClosed ⟨hclosed, hshutdown⟩ hpending hend]
    · rwa [receive_of_pending ⟨hclosed, hshutdown⟩ hpending]

theorem takeTurns_eq (turns : List Turn) (s : Sockets) :
    (s.takeTurns turns).2.written = s.written ++ Sending.pieces (s.takeTurns turns).1 ∧
      ∀ x ∈ (s.takeTurns turns).1, x.Fair := by
  induction turns generalizing s with
  | nil => exact ⟨(List.append_nil _).symm, nofun⟩
  | cons turn later ih =>
      cases turn with
      | send writes frame =>
          obtain ⟨piece, hwritten, hfair⟩ := sendRequest_eq writes frame s
          obtain ⟨hlater, hfairLater⟩ := ih (s.sendRequest writes frame).2
          have hpiece : (s.sendRequest writes frame).2.written.drop s.written.length = piece := by
            rw [hwritten, List.drop_left]
          simp only [takeTurns, hpiece]
          refine ⟨?_, List.forall_mem_cons.2 ⟨hfair, hfairLater⟩⟩
          rw [hlater, hwritten, List.append_assoc]
          rfl
      | receive wakes =>
          have hlater := ih (s.receive wakes).2.1
          rw [receive_written] at hlater
          exact hlater
      | close => exact ih s.close

theorem takeTurns_of_shut (turns : List Turn) (h : (s.closed || s.farClosed) = true) :
    ∀ x ∈ (s.takeTurns turns).1, x.piece = [] := by
  induction turns generalizing s with
  | nil => exact nofun
  | cons turn later ih =>
      cases turn with
      | send writes frame =>
          have hrefused : s.sendRequest writes frame = (.error .closed, s) := if_pos h
          simp only [takeTurns, hrefused]
          exact List.forall_mem_cons.2 ⟨List.drop_length, ih h⟩
      | receive wakes => exact ih (receive_shut h wakes)
      | close => exact ih (s := s.close) rfl

/-- Whatever turns the client takes, the stream holds what the requests have left, one behind the
other: the whole frame of each that was sent, and nothing or a part of the frame of each other.  So
it is made up of whole frames, up to one that is broken off at the end, just if the client does not
write behind such a frame.  It does not once the channel is closed on either side; but as long as it
is not, any frame can be written behind whatever is there. -/
theorem request_stream (turns : List Turn) (s : Sockets) :
    let (sendings, s') := s.takeTurns turns
    s'.written = s.written ++ Sending.pieces sendings ∧ (∀ x ∈ sendings, x.Fair) ∧
      (Sending.Framed sendings ↔ Sending.Stops sendings) ∧
      ((s.closed || s.farClosed) = true → ∀ x ∈ sendings, x.piece = []) ∧
      (s'.closed = false → s'.farClosed = false → ∀ frame,
        s'.sendRequest [] frame = (.ok (), { s' with written := s'.written ++ frame })) := by
  obtain ⟨hwritten, hfair⟩ := takeTurns_eq turns s
  exact ⟨hwritten, hfair, Sending.framed_iff hfair, takeTurns_of_shut turns,
    fun h hopen frame => sendRequest_of_open h hopen frame⟩

/-- A request to stop of which five bytes are taken before the time is over, and another one. -/
def brokenStop : List Turn :=
  [.send [.taken 5, .full true] (Request.stopMove.encode 0), .send [] (Request.stopMove.encode 1)]

theorem request_stream_broken :
    let (sendings, s) := takeTurns brokenStop {}
    (s.closed = false ∧ s.farClosed = false) ∧ s.written = Sending.pieces sendings ∧
      s.sendRequest [] (Request.stopMove.encode 2) =
        (.ok (), { s with written := s.written ++ Request.stopMove.encode 2 }) := by
  have hopen : (takeTurns brokenStop {}).2.closed = false ∧
      (takeTurns brokenStop {}).2.farClosed = false := by decide
  obtain ⟨hwritten, -, -, -, hgoesOn⟩ := request_stream brokenStop {}
  exact ⟨hopen, hwritten, hgoesOn hopen.1 hopen.2 _⟩

/-- The second request is sent behind the five bytes of the first one, and the stream does not even
begin with its frame. -/
theorem request_behind_broken_frame :
    let (sendings, s) := takeTurns brokenStop {}
    sendings.map Sending.result = [.error .timeout, .ok ()] ∧
      Sending.sentFrames sendings = [Request.stopMove.encode 1] ∧
      s.written = (Request.stopMove.encode 0).take 5 ++ Request.stopMove.encode 1 ∧
      ¬ Request.stopMove.encode 1 <+: s.written ∧ ¬ Sending.Framed sendings := by
  have hprefix : ¬ Request.stopMove.encode 1 <+: (takeTurns brokenStop {}).2.written := by decide
  refine ⟨rfl, rfl, by decide, hprefix, ?_⟩
  rintro ⟨⟨part, hpieces, -⟩, -⟩
  exact hprefix ⟨part, hpieces.symm⟩

end Sockets
end ArmControl
