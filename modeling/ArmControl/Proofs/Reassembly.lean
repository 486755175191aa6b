import ArmControl.Proofs.Cutting
import ArmControl.Proofs.Receiving

/-! # Frames that come in pieces

The stream brings the frames of the controller in pieces of any length.  What a drain leaves is put
before what the next one reads, so that only the stream decides which frames are queued, what is
left and whether a size is wrong (`stream_reassembled`).  So it is for the client too, which takes
events in between and is sent datagrams (`replies_receiveEach`). -/

namespace ArmControl

/-- The reply frames among some events. -/
def Incoming.replies (events : List Incoming) : List Bytes :=
  events.filterMap fun
    | reply frame => some frame
    | state _ => none
    | closed => none

/-- The events among some answers. -/
def Answer.events (answers : List Answer) : List Incoming :=
  answers.filterMap fun
    | .ok event => some event
    | .error _ => none

/-- What reading the stream gives to a client that wakes up. -/
def Wake.reads : Wake → List StreamRead
  | news (some reads) _ => reads
  | news none _ => []
  | failed _ => []

open StreamRead

/-! ### Replies among the answers -/

namespace Incoming

theorem replies_append (a b : List Incoming) : replies (a ++ b) = replies a ++ replies b :=
  List.filterMap_append

theorem replies_map_reply (frames : List Bytes) : replies (frames.map reply) = frames := by
  rw [replies, List.filterMap_map]
  exact List.filterMap_some

theorem replies_replicate_closed (n : Nat) : replies (List.replicate n closed) = [] := by
  simp [replies]

end Incoming

namespace Answer

theorem events_append (a b : List Answer) : events (a ++ b) = events a ++ events b :=
  List.filterMap_append

theorem events_map_ok (es : List Incoming) : events (es.map .ok) = es := by
  rw [events, List.filterMap_map]
  exact List.filterMap_some

theorem events_untimed (answers : List Answer) : events (untimed answers) = events answers := by
  induction answers with
  | nil => rfl
  | cons a answers ih =>
      unfold events at *
      rcases a with (_ | _) | _ <;> simp_all [untimed, isTimeout]

theorem events_told (result : Except LinkError Unit) (found : List Incoming) :
    events (Sockets.told result found) = found := by
  cases result with
  | error err => exact events_map_ok found
  | ok => exact events_map_ok found

end Answer

namespace Sockets

variable {s : Sockets} {w : Wake} {reads : List StreamRead}

/-- Datagrams do not touch the stream, and queue no replies. -/
theorem drainDatagrams_replies (datagrams : List DatagramRead) (s : Sockets) :
    (s.drainDatagrams datagrams).2.unframed = s.unframed ∧
      (s.drainDatagrams datagrams).2.farClosed = s.farClosed ∧
      Incoming.replies (s.drainDatagrams datagrams).2.pending = Incoming.replies s.pending := by
  fun_induction drainDatagrams datagrams s with
  | case1 | case4 => exact ⟨rfl, rfl, rfl⟩
  | case2 sender bytes rest s ih =>
      refine ⟨ih.1, ih.2.1, ih.2.2.trans ?_⟩
      rw [Incoming.replies_append]
      exact List.append_nil _
  | case3 rest s ih => exact ih

/-- Nothing waits, the stream goes on, and what is left of it has no whole frame in front. -/
structure Awaits (s : Sockets) : Prop where
  pending : s.pending = []
  goesOn : s.farClosed = false
  cut : (Frames.cut s.unframed).frames = []

theorem awaits_nothing : Awaits {} := ⟨rfl, rfl, by rw [Frames.cut_nil]⟩

/-- A look cuts what was left together with what it reads. -/
theorem look_replies (h : Sound w.reads) (hs : s.Awaits) :
    let found := Frames.cut (s.unframed ++ gathered w.reads)
    (s.look w).2.unframed = found.rest ∧ (s.look w).2.farClosed = ends w.reads ∧
      Incoming.replies (s.look w).2.pending = found.frames := by
  -- what no bytes are added to is left as it is
  have hsame : s.unframed = (Frames.cut s.unframed).rest ∧ s.farClosed = false ∧
      Incoming.replies s.pending = (Frames.cut s.unframed).frames := by
    rw [Frames.rest_of_frames_eq_nil hs.cut, hs.cut, hs.pending]
    exact ⟨rfl, hs.goesOn, rfl⟩
  rcases w with ⟨_ | reads, datagrams⟩ | text
  · obtain ⟨hunframed, hend, hreplies⟩ := drainDatagrams_replies datagrams s
    simp only [Wake.reads, gathered, ends, List.append_nil]
    exact ⟨hunframed.trans hsame.1, hend.trans hsame.2.1, hreplies.trans hsame.2.2⟩
  · replace h : Sound reads := h
    have hdrain := drain_eq h hs.goesOn
    have hfound := Incoming.replies_map_reply (Frames.cut (s.unframed ++ gathered reads)).frames
    rw [hs.pending] at hdrain
    simp only [look, Option.elim, hdrain, Wake.reads]
    rcases (Frames.cut (s.unframed ++ gathered reads)).verdict with err | ok
    · exact ⟨rfl, rfl, hfound⟩
    · obtain ⟨hunframed, hend, hreplies⟩ := drainDatagrams_replies datagrams (s.drain reads).2
      simp only [hdrain] at hunframed hend hreplies
      exact ⟨hunframed, hend, hreplies.trans hfound⟩
  · simp only [Wake.reads, gathered, ends, List.append_nil]
    exact hsame

/-- Behind the end of the stream, looking finds no replies. -/
theorem look_of_farClosed (w : Wake) (hend : s.farClosed = true) :
    (s.look w).2.unframed = s.unframed ∧ (s.look w).2.farClosed = true ∧
      Incoming.replies (s.look w).2.pending = Incoming.replies s.pending := by
  rcases w with ⟨stream, datagrams⟩ | text
  · have hstream : (stream.elim (.ok (), s) fun reads => s.drain reads) = (.ok (), s) := by
      cases stream with
      | none => rfl
      | some reads => exact drain_of_farClosed hend
    have hsame := drainDatagrams_replies datagrams s
    rw [hend] at hsame
    simpa only [look, hstream] using hsame
  · exact ⟨rfl, hend, rfl⟩

theorem looks_of_farClosed (wakes : List Wake) (hpending : s.pending = [])
    (hend : s.farClosed = true) : (s.looks wakes).2.unframed = s.unframed ∧
      (s.looks wakes).2.farClosed = true ∧
      Incoming.replies (Answer.events (s.looks wakes).1) = [] := by
  induction wakes generalizing s with
  | nil => exact ⟨rfl, hend, rfl⟩
  | cons w later ih =>
      obtain ⟨hunframed, hclosed, hreplies⟩ := look_of_farClosed w hend
      obtain ⟨hrest, hclosed, hnone⟩ := ih (s := (s.look w).2.emptied) rfl hclosed
      simp only [looks, Answer.events_append, Answer.events_told, Incoming.replies_append, hreplies,
        hpending, hnone]
      exact ⟨hrest.trans hunframed, hclosed, rfl⟩

/-- Looking again and again cuts the whole stream. -/
theorem looks_replies {wakes : List Wake} (h : Sound (wakes.flatMap Wake.reads)) (hs : s.Awaits) :
    let found := Frames.cut (s.unframed ++ gathered (wakes.flatMap Wake.reads))
    (s.looks wakes).2.unframed = found.rest ∧
      (s.looks wakes).2.farClosed = ends (wakes.flatMap Wake.reads) ∧
      Incoming.replies (Answer.events (s.looks wakes).1) = found.frames := by
  induction wakes generalizing s with
  | nil =>
      simp only [List.flatMap_nil, gathered, List.append_nil, hs.cut,
        Frames.rest_of_frames_eq_nil hs.cut]
      exact ⟨rfl, hs.goesOn, rfl⟩
  | cons w later ih =>
      obtain ⟨hw, hlater⟩ := sound_append.1 h
      obtain ⟨hunframed, hclosed, hreplies⟩ := look_replies hw hs
      simp only [looks, List.flatMap_cons, gathered_append hw, ends_append hw,
        Answer.events_append, Answer.events_told, Incoming.replies_append, hreplies]
      cases hends : ends w.reads with
      | true =>
          obtain ⟨hrest, hend, hnone⟩ := looks_of_farClosed (s := (s.look w).2.emptied) later rfl
            (hclosed.trans hends)
          rw [if_pos rfl, List.append_nil, hnone, List.append_nil]
          exact ⟨hrest.trans hunframed, hend, rfl⟩
      | false =>
          have hnext : (s.look w).2.emptied.unframed =
            (Frames.cut (s.unframed ++ gathered w.reads)).rest := hunframed
          have hawaits : (s.look w).2.emptied.Awaits :=
            ⟨rfl, hclosed.trans hends, by rw [hnext, Frames.cut_rest]⟩
          have hrest := ih hlater hawaits
          rw [hnext] at hrest
          rw [if_neg Bool.false_ne_true, ← List.append_assoc, Frames.cut_append]
          exact ⟨hrest.1, hrest.2.1, congrArg (_ ++ ·) hrest.2.2⟩

/-- Whatever else is taken in between, the replies that were handed out and those that wait are the
frames that were cut off what the looks have read. -/
theorem replies_receiveEach {calls : List (List Wake)}
    (h : Sound (calls.flatten.flatMap Wake.reads)) :
    ∃ looked, calls.flatten = looked ++ (receiveEach calls [] {}).2.2 ∧
      let found := Frames.cut (gathered (looked.flatMap Wake.reads))
      let (answers, s, _) := receiveEach calls [] {}
      Incoming.replies (Answer.events answers) ++ Incoming.replies s.pending = found.frames ∧
        s.unframed = found.rest ∧ s.farClosed = ends (looked.flatMap Wake.reads) := by
  obtain ⟨looked, again, hlooked, hreceives⟩ :=
    receiveEach_receives (s := {}) ⟨rfl, rfl⟩ calls []
  rw [List.nil_append] at hlooked
  have hsound : Sound (looked.flatMap Wake.reads) := by
    rw [hlooked, List.flatMap_append] at h
    exact (sound_append.1 h).1
  obtain ⟨hrest, hend, hframes⟩ := looks_replies hsound awaits_nothing
  have hsame := hreceives.emptied
  refine ⟨looked, hlooked, ?_, (congrArg unframed hsame).trans hrest,
    (congrArg farClosed hsame).trans hend⟩
  have hconserved := congrArg (fun x => Incoming.replies (Answer.events x)) hreceives.conserved
  have hclosed : Answer.events (List.replicate again (.ok .closed)) =
      List.replicate again Incoming.closed := by
    rw [← List.map_replicate, Answer.events_map_ok]
  simp only [Answer.events_append, Answer.events_untimed, Answer.events_map_ok, hclosed,
    Incoming.replies_append, Incoming.replies_replicate_closed, List.append_nil] at hconserved
  exact hconserved.trans hframes

/-! ### The whole stream -/

/-- What a drain does with the bytes that are left and those that it reads. -/
structure Drained (s : Sockets) (reads : List StreamRead) (result : Except LinkError Unit)
    (s' : Sockets) : Prop where
  /-- Frames are queued and a rest is left, and no byte is lost. -/
  splits : ∃ frames, s'.pending = s.pending ++ frames.map .reply ∧
    Frames.Splits (s.unframed ++ gathered reads) frames s'.unframed
  /-- It fails just if the header in front of what is left names a wrong size. -/
  fails : ∀ err, result = .error err ↔ ∃ n, err = .invalidFrame n ∧
    Header.declaredSize? s'.unframed = some n ∧ ¬ (12 ≤ n ∧ n ≤ 15)
  farClosed : s'.farClosed = ends reads

theorem drained_drain (h : Sound reads) (hopen : s.farClosed = false) :
    Drained s reads (s.drain reads).1 (s.drain reads).2 := by
  have hdrain := drain_eq h hopen
  dsimp only at hdrain
  rw [hdrain]
  refine ⟨⟨_, rfl, Frames.splits_cut _⟩, fun err => ?_, rfl⟩
  simp only [Frames.verdict_eq_error_iff, Frames.wrongSize_eq_some_iff, and_comm]

/-- What all the drains of a stream come to. -/
structure Reassembled (stream : Bytes) (results : List (Except LinkError Unit)) (s : Sockets) :
    Prop where
  /-- The frames that are queued and what is left are the one way to split the stream. -/
  splits : ∀ frames rest, Frames.Splits stream frames rest ↔
    s.pending = frames.map .reply ∧ s.unframed = rest
  /-- Cutting ends: every frame takes its twelve bytes and more. -/
  length_le : 12 * s.pending.length ≤ stream.length
  /-- Some drain fails just if the header in front of what is left names a wrong size. -/
  fails : ∀ err, .error err ∈ results ↔ ∃ n, err = .invalidFrame n ∧
    Header.declaredSize? s.unframed = some n ∧ ¬ (12 ≤ n ∧ n ≤ 15)

theorem reassembled_drainEach {drains : List (List StreamRead)} (h : Sound drains.flatten) :
    Reassembled (gathered drains.flatten) (drainEach drains {}).1 (drainEach drains {}).2 := by
  have hdrain := drainEach_eq (s := {}) h rfl (by rw [Frames.cut_nil])
  simp only [List.nil_append] at hdrain
  rw [hdrain]
  refine ⟨fun frames rest => ?_, ?_, fun err => ?_⟩
  · rw [← Frames.cut_eq_iff]
    refine and_congr_left fun _ => ⟨congrArg _, fun hmap => ?_⟩
    have hreplies := congrArg Incoming.replies hmap
    rwa [Incoming.replies_map_reply, Incoming.replies_map_reply] at hreplies
  · rw [List.length_map]
    exact Frames.length_frames_le _
  · simp only [← Frames.wrongSize_eq_some_iff]
    constructor
    · intro hmem
      obtain ⟨n, hwrong, herr⟩ := wrongSize_of_mem_drainEach h rfl hmem
      exact ⟨n, herr, hwrong⟩
    · rintro ⟨n, rfl, hwrong⟩
      exact mem_drainEach_of_wrongSize h rfl (by rw [Frames.cut_nil]) hwrong

/-- Of replies that were written one after the other no drain says that their size is wrong, and
when all of them have come they are queued, and nothing is left. -/
theorem drainEach_replies {replies : List (Reply × UInt32)} {drains : List (List StreamRead)}
    (h : Sound drains.flatten)
    (hcome : gathered drains.flatten <+: (replies.map fun r => r.1.encode r.2).flatten) :
    (∀ result ∈ (drainEach drains {}).1, result = .ok ()) ∧
      (gathered drains.flatten = (replies.map fun r => r.1.encode r.2).flatten →
        (drainEach drains {}).2.pending = replies.map (fun r => .reply (r.1.encode r.2)) ∧
          (drainEach drains {}).2.unframed = []) := by
  have hcut := Frames.cut_replies replies
  constructor
  · obtain ⟨more, hmore⟩ := hcome
    have hright : (Frames.cut (gathered drains.flatten)).wrongSize = none := by
      rw [← hmore] at hcut
      exact Frames.wrongSize_eq_none_of_append (congrArg Frames.wrongSize hcut)
    rintro (err | _) hmem
    · obtain ⟨n, hwrong, -⟩ := wrongSize_of_mem_drainEach h rfl hmem
      rw [List.nil_append, hright] at hwrong
      cases hwrong
    · rfl
  · intro hall
    have hdrain := drainEach_eq (s := {}) h rfl (by rw [Frames.cut_nil])
    simp only [List.nil_append, hall, hcut, List.map_map] at hdrain
    rw [hdrain]
    exact ⟨rfl, rfl⟩

/-- Whatever pieces a stream comes in, the frames that are queued, the rest that is left and the
fault that is raised are those of the stream.  A drain neither loses a byte nor raises anything else
than a wrong size, and raises that just if it stands in front.  Replies that were written come back.
Behind the end of the stream the client is handed what waits, and then told of the end for ever; the
stream is not drained again.  And so it is when the client takes events in between. -/
theorem stream_reassembled :
    (∀ (s : Sockets) (reads : List StreamRead), Sound reads → s.farClosed = false →
      Drained s reads (s.drain reads).1 (s.drain reads).2) ∧
    (∀ drains : List (List StreamRead), Sound drains.flatten →
      Reassembled (gathered drains.flatten) (drainEach drains {}).1 (drainEach drains {}).2) ∧
    (∀ (replies : List (Reply × UInt32)) (drains : List (List StreamRead)), Sound drains.flatten →
      gathered drains.flatten <+: (replies.map fun r => r.1.encode r.2).flatten →
      (∀ result ∈ (drainEach drains {}).1, result = .ok ()) ∧
        (gathered drains.flatten = (replies.map fun r => r.1.encode r.2).flatten →
          (drainEach drains {}).2.pending = replies.map (fun r => .reply (r.1.encode r.2)) ∧
            (drainEach drains {}).2.unframed = [])) ∧
    (∀ s : Sockets, s.IsOpen → s.farClosed = true → ∀ calls left,
      (s.receiveEach calls left).1 = (s.pending.map Except.ok).take calls.length ++
          List.replicate (calls.length - s.pending.length) (.ok .closed) ∧
        (s.receiveEach calls left).2.2 = left ++ calls.flatten) ∧
    (∀ calls : List (List Wake), Sound (calls.flatten.flatMap Wake.reads) →
      ∃ looked, calls.flatten = looked ++ (receiveEach calls [] {}).2.2 ∧
        let found := Frames.cut (gathered (looked.flatMap Wake.reads))
        let (answers, s, _) := receiveEach calls [] {}
        Incoming.replies (Answer.events answers) ++ Incoming.replies s.pending = found.frames ∧
          s.unframed = found.rest ∧ s.farClosed = ends (looked.flatMap Wake.reads)) :=
  ⟨fun _ _ => drained_drain, fun _ => reassembled_drainEach, fun _ _ => drainEach_replies,
    fun _ => receiveEach_of_farClosed, fun _ => replies_receiveEach⟩

/-- A reply that comes in two pieces, the second with the end of the stream. -/
theorem stream_reassembled_split :
    let frame := (Reply.stopMove .success).encode 9
    let drains := [[.bytes (frame.take 5)], [.interrupted, .bytes (frame.drop 5), .ended]]
    let s := (drainEach drains {}).2
    s.pending = [.reply frame] ∧ s.unframed = [] ∧
      (s.receiveEach [[], [], []] []).1 = [.ok (.reply frame), .ok .closed, .ok .closed] := by
  intro frame drains s
  have hsound : Sound drains.flatten := by
    intro text
    simp [drains]
  have hgathered : gathered drains.flatten = [frame].flatten := by decide
  obtain ⟨hpending, hunframed⟩ := (stream_reassembled.2.2.1 [(.stopMove .success, 9)] drains hsound
    (by rw [hgathered]; exact List.prefix_refl _)).2 hgathered
  refine ⟨hpending, hunframed, ?_⟩
  have hdrain := drainEach_eq (s := {}) hsound rfl (by rw [Frames.cut_nil])
  have hclosed := stream_reassembled.2.2.2.1 s
    ⟨congrArg closed hdrain, congrArg shutdown hdrain⟩ (congrArg farClosed hdrain) [[], [], []] []
  rw [hclosed.1, hpending]
  rfl

end Sockets
end ArmControl
