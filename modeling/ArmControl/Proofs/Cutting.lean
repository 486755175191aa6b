import ArmControl.Proofs.Frames
import ArmControl.Socket.Basic

/-! # Cutting a stream into frames

A frame is `Whole` if it is as long as it says and as long as some reply.  A stream `Splits` into
whole frames and a rest with no whole frame in front, and it does so in one way, which is what is
cut off it (`Frames.cut_eq_iff`).  So it makes no difference in how many parts a stream is cut, if
each time the rest is kept for the next part (`Frames.cut_append`), and replies that were written
one after the other come back (`Frames.cut_replies`).

`Sockets.drain` cuts what has come of the stream, part by part: `drainEach_eq` states what all the
parts together have queued and left. -/

namespace ArmControl

/-! ### Whole frames -/

namespace Header

variable {bytes more : Bytes} {n : Nat}

theorem declaredSize?_eq_some_iff : declaredSize? bytes = some n ↔
    12 ≤ bytes.length ∧ Wire.ofLittleEndian ((bytes.drop 8).take 4) = n := by
  unfold declaredSize? length
  split
  · rename_i hshort
    simp only [reduceCtorEq, false_iff]
    omega
  · rename_i hlong
    simp only [Option.some.injEq]
    exact ⟨fun h => ⟨by omega, h⟩, And.right⟩

/-- The declared size stands in the first twelve bytes. -/
theorem declaredSize?_append (h : 12 ≤ bytes.length) (more : Bytes) :
    declaredSize? (bytes ++ more) = declaredSize? bytes := by
  have hdrop : ((bytes ++ more).drop 8).take 4 = (bytes.drop 8).take 4 := by
    rw [List.drop_append_of_le_length (by omega), List.take_append_of_le_length]
    rw [List.length_drop]
    omega
  have hlong : ¬ bytes.length < length := Nat.not_lt.2 h
  have hlonger : ¬ (bytes ++ more).length < length := by
    rw [List.length_append]
    omega
  simp only [declaredSize?, if_neg hlong, if_neg hlonger, hdrop]

end Header

/-- A frame that is written declares its own length. -/
theorem Frame.declaredSize?_encode {kind : FrameKind} {id : UInt32} {payload : Bytes}
    (h : Header.length + payload.length < UInt32.size) :
    Header.declaredSize? (encode kind id payload) = some (encode kind id payload).length := by
  have hlong : Header.length ≤ (encode kind id payload).length := by
    rw [length_encode]
    exact Nat.le_add_right ..
  refine Header.declaredSize?_eq_some_iff.2 ⟨hlong, ?_⟩
  have hsize : ((encode kind id payload).drop 8).take 4 =
      Wire.littleEndian 4 (Header.length + payload.length) := by
    rw [encode_eq kind id h, layout, List.append_assoc, List.drop_left' (by simp),
      List.take_left' (by simp)]
  rw [hsize, Wire.ofLittleEndian_littleEndian h, length_encode]

namespace Frames

variable {frame stream rest : Bytes} {frames : List Bytes} {n : Nat}

theorem isReplySize_iff : isReplySize n = true ↔ 12 ≤ n ∧ n ≤ 15 := by
  simp only [isReplySize, Bool.and_eq_true, decide_eq_true_eq]
  exact Iff.rfl

/-- The frame is as long as it says, and as long as some reply. -/
def Whole (frame : Bytes) : Prop :=
  Header.declaredSize? frame = some frame.length ∧ 12 ≤ frame.length ∧ frame.length ≤ 15

/-- The stream consists of whole frames and of a rest that begins with none. -/
structure Splits (stream : Bytes) (frames : List Bytes) (rest : Bytes) : Prop where
  eq_append : stream = frames.flatten ++ rest
  whole : ∀ frame ∈ frames, Whole frame
  stuck : ∀ frame more, rest = frame ++ more → ¬ Whole frame

@[simp] theorem cut_nil : cut [] = ⟨[], [], none⟩ := by
  rw [cut]
  rfl

/-- One whole frame is taken off the front. -/
theorem cut_whole (h : Whole frame) (rest : Bytes) :
    cut (frame ++ rest) = { cut rest with frames := frame :: (cut rest).frames } := by
  obtain ⟨hdeclared, hlow, hhigh⟩ := h
  have hfront := (Header.declaredSize?_append hlow rest).trans hdeclared
  rw [cut, hfront]
  simp only [isReplySize_iff.2 ⟨hlow, hhigh⟩, List.length_append,
    Nat.not_lt.2 (Nat.le_add_right frame.length rest.length), List.take_left, List.drop_left,
    if_false, dif_pos]

theorem rest_of_frames_eq_nil (h : (cut stream).frames = []) : (cut stream).rest = stream := by
  simpa only [h, List.flatten_nil, List.nil_append] using flatten_cut stream

theorem cut_flatten (h : ∀ frame ∈ frames, Whole frame) (rest : Bytes) :
    cut (frames.flatten ++ rest) = { cut rest with frames := frames ++ (cut rest).frames } := by
  induction frames with
  | nil => rfl
  | cons frame frames ih =>
      obtain ⟨hframe, hframes⟩ := List.forall_mem_cons.1 h
      rw [List.flatten_cons, List.append_assoc, cut_whole hframe, ih hframes]
      rfl

theorem whole_of_mem_cut (h : frame ∈ (cut stream).frames) : Whole frame := by
  fun_induction cut stream with
  | case1 | case2 | case4 => cases h
  | case3 stream size hdeclared hsize hlong behind ih =>
      obtain ⟨hlow, hhigh⟩ := isReplySize_iff.1 hsize
      rcases List.mem_cons.1 h with rfl | hbehind
      · have hlength : (stream.take size).length = size := by
          rw [List.length_take]
          omega
        have hfront : Header.declaredSize? (stream.take size ++ stream.drop size) =
            Header.declaredSize? (stream.take size) :=
          Header.declaredSize?_append (by omega) _
        rw [List.take_append_drop] at hfront
        exact ⟨by rw [← hfront, hdeclared, hlength], by omega, by omega⟩
      · exact ih hbehind

/-- What is left is declared to be of a wrong size, or is not yet a whole frame. -/
theorem wrongSize_eq_some_iff : (cut stream).wrongSize = some n ↔
    Header.declaredSize? (cut stream).rest = some n ∧ ¬ (12 ≤ n ∧ n ≤ 15) := by
  fun_induction cut stream with
  | case1 stream hdeclared => simp [hdeclared]
  | case2 stream size hdeclared hsize hshort =>
      simp only [hdeclared, reduceCtorEq, Option.some.injEq, false_iff]
      rintro ⟨rfl, hwrong⟩
      exact hwrong (isReplySize_iff.1 hsize)
  | case3 stream size hdeclared hsize hlong behind ih => exact ih
  | case4 stream size hdeclared hsize =>
      have hwrong : ¬ (12 ≤ size ∧ size ≤ 15) := fun h => hsize (isReplySize_iff.2 h)
      simp only [hdeclared, Option.some.injEq]
      exact ⟨fun h => ⟨h, h ▸ hwrong⟩, And.left⟩

theorem cut_of_stuck (h : ∀ frame more, rest = frame ++ more → ¬ Whole frame) :
    (cut rest).frames = [] ∧ (cut rest).rest = rest := by
  have hframes : (cut rest).frames = [] := by
    rcases hcut : (cut rest).frames with _ | ⟨frame, frames⟩
    · rfl
    · have hflatten := flatten_cut rest
      rw [hcut, List.flatten_cons, List.append_assoc] at hflatten
      exact absurd (whole_of_mem_cut (hcut ▸ List.mem_cons_self)) (h _ _ hflatten.symm)
  exact ⟨hframes, rest_of_frames_eq_nil hframes⟩

theorem splits_cut (stream : Bytes) : Splits stream (cut stream).frames (cut stream).rest where
  eq_append := (flatten_cut stream).symm
  whole := fun _ => whole_of_mem_cut
  stuck := by
    fun_induction cut stream with
    | case1 stream hdeclared =>
        rintro frame more rfl hwhole
        rw [Header.declaredSize?_append hwhole.2.1, hwhole.1] at hdeclared
        cases hdeclared
    | case2 stream size hdeclared hsize hshort =>
        rintro frame more rfl hwhole
        rw [Header.declaredSize?_append hwhole.2.1, hwhole.1] at hdeclared
        obtain rfl := Option.some.inj hdeclared
        rw [List.length_append] at hshort
        omega
    | case3 stream size hdeclared hsize hlong behind ih => exact ih
    | case4 stream size hdeclared hsize =>
        rintro frame more rfl hwhole
        rw [Header.declaredSize?_append hwhole.2.1, hwhole.1] at hdeclared
        obtain rfl := Option.some.inj hdeclared
        exact hsize (isReplySize_iff.2 hwhole.2)

/-- A stream splits in just one way. -/
theorem cut_eq_iff : (cut stream).frames = frames ∧ (cut stream).rest = rest ↔
    Splits stream frames rest := by
  constructor
  · rintro ⟨rfl, rfl⟩
    exact splits_cut stream
  · rintro ⟨rfl, hwhole, hstuck⟩
    obtain ⟨hframes, hrest⟩ := cut_of_stuck hstuck
    rw [cut_flatten hwhole, hframes]
    exact ⟨List.append_nil _, hrest⟩

/-- A stream may be cut in two parts, if the second is put behind what the first leaves. -/
theorem cut_append (a b : Bytes) : cut (a ++ b) =
    { cut ((cut a).rest ++ b) with
      frames := (cut a).frames ++ (cut ((cut a).rest ++ b)).frames } := by
  have hsplits := splits_cut a
  rw [← cut_flatten hsplits.whole, ← List.append_assoc, ← hsplits.eq_append]

/-- Nothing more is cut off what is left. -/
theorem cut_rest (stream : Bytes) :
    cut (cut stream).rest = ⟨[], (cut stream).rest, (cut stream).wrongSize⟩ := by
  obtain ⟨hframes, hrest⟩ := cut_of_stuck (splits_cut stream).stuck
  have hwrong : (cut (cut stream).rest).wrongSize = (cut stream).wrongSize := by
    have heq := cut_append stream []
    rw [List.append_nil, List.append_nil] at heq
    exact (congrArg Frames.wrongSize heq).symm
  rw [← hwrong]
  exact Frames.mk.injEq .. ▸ ⟨hframes, hrest, rfl⟩

/-- A wrong size in front stays there, whatever follows. -/
theorem cut_of_wrongSize (h : (cut stream).wrongSize = some n) (more : Bytes) :
    cut (stream ++ more) = ⟨(cut stream).frames, (cut stream).rest ++ more, some n⟩ := by
  obtain ⟨hdeclared, hwrong⟩ := wrongSize_eq_some_iff.1 h
  have hfront : Header.declaredSize? ((cut stream).rest ++ more) = some n := by
    rw [Header.declaredSize?_append (Header.declaredSize?_eq_some_iff.1 hdeclared).1, hdeclared]
  have hrest : cut ((cut stream).rest ++ more) = ⟨[], (cut stream).rest ++ more, some n⟩ := by
    rw [cut, hfront]
    exact dif_neg fun hsize => hwrong (isReplySize_iff.1 hsize)
  rw [cut_append, hrest, List.append_nil]

/-- A whole frame takes twelve bytes and more, so there are not many. -/
theorem length_frames_le (stream : Bytes) : 12 * (cut stream).frames.length ≤ stream.length := by
  fun_induction cut stream with
  | case1 | case2 | case4 => exact Nat.zero_le _
  | case3 stream size hdeclared hsize hlong behind ih =>
      have hlow := (isReplySize_iff.1 hsize).1
      rw [List.length_drop] at ih
      change 12 * ((cut (stream.drop size)).frames.length + 1) ≤ stream.length
      omega

/-! ### Replies that follow each other -/

theorem whole_encode (r : Reply) (id : UInt32) : Whole (r.encode id) := by
  have hlength : (r.encode id).length = 12 + r.payload.length := Frame.length_encode ..
  have hpayload : r.payload.length ≤ 3 := by
    rw [Reply.payload_length]
    cases r.kind <;> decide
  exact ⟨Frame.declaredSize?_encode r.length_lt, by omega, by omega⟩

/-- Replies that were written one after the other come back. -/
theorem cut_replies (replies : List (Reply × UInt32)) :
    cut (replies.map fun r => r.1.encode r.2).flatten =
      ⟨replies.map fun r => r.1.encode r.2, [], none⟩ := by
  have hwhole : ∀ frame ∈ replies.map fun r => r.1.encode r.2, Whole frame := by
    intro frame hmem
    obtain ⟨r, -, rfl⟩ := List.mem_map.1 hmem
    exact whole_encode r.1 r.2
  have hcut := cut_flatten hwhole []
  rwa [cut_nil, List.append_nil, List.append_nil] at hcut

/-- No size is wrong on the way, if none is at the end. -/
theorem wrongSize_eq_none_of_append {more : Bytes} (h : (cut (stream ++ more)).wrongSize = none) :
    (cut stream).wrongSize = none := by
  rcases hwrong : (cut stream).wrongSize with _ | n
  · rfl
  · rw [cut_of_wrongSize hwrong] at h
    cases h

/-- What is said of a stream that has been cut. -/
def verdict (found : Frames) : Except LinkError Unit :=
  match found.wrongSize with
  | some size => .error (.invalidFrame size)
  | none => .ok ()

theorem verdict_eq_error_iff {found : Frames} {err : LinkError} :
    found.verdict = .error err ↔ ∃ n, found.wrongSize = some n ∧ err = .invalidFrame n := by
  unfold verdict
  cases found.wrongSize with
  | none => simp
  | some size => simp [eq_comm]

end Frames

/-! ### Reading the stream -/

namespace StreamRead

variable {a b reads : List StreamRead}

/-- The bytes that are read, up to the end of the stream. -/
def gathered : List StreamRead → Bytes
  | [] => []
  | bytes chunk :: later => chunk ++ gathered later
  | interrupted :: later => gathered later
  | ended :: _ => []
  | reset :: _ => []
  | failed _ :: _ => []

/-- The end of the stream is read. -/
def ends : List StreamRead → Bool
  | [] => false
  | bytes _ :: later => ends later
  | interrupted :: later => ends later
  | ended :: _ => true
  | reset :: _ => true
  | failed _ :: _ => false

/-- Reading the stream does not fail. -/
def Sound (reads : List StreamRead) : Prop := ∀ text, failed text ∉ reads

theorem sound_append : Sound (a ++ b) ↔ Sound a ∧ Sound b := by
  simp only [Sound, List.mem_append, not_or, forall_and]

theorem Sound.of_cons {read : StreamRead} (h : Sound (read :: reads)) : Sound reads :=
  fun text hmem => h text (List.mem_cons_of_mem _ hmem)

theorem gathered_append (h : Sound a) :
    gathered (a ++ b) = gathered a ++ if ends a then [] else gathered b := by
  induction a with
  | nil => rfl
  | cons read a ih =>
      cases read with
      | bytes chunk =>
          rw [List.cons_append, gathered, ih h.of_cons, gathered, List.append_assoc]
          rfl
      | interrupted => exact ih h.of_cons
      | ended | reset => rfl
      | failed text => exact absurd List.mem_cons_self (h text)

theorem ends_append (h : Sound a) : ends (a ++ b) = (ends a || ends b) := by
  induction a with
  | nil => rfl
  | cons read a ih =>
      cases read with
      | bytes chunk => exact ih h.of_cons
      | interrupted => exact ih h.of_cons
      | ended | reset => rfl
      | failed text => exact absurd List.mem_cons_self (h text)

end StreamRead

namespace Sockets

open StreamRead

variable {s : Sockets} {reads : List StreamRead}

theorem readStream_eq (h : Sound reads) (s : Sockets) : s.readStream reads =
    (.ok (), { s with
      unframed := s.unframed ++ gathered reads
      farClosed := s.farClosed || ends reads }) := by
  induction reads generalizing s with
  | nil => simp only [readStream, gathered, ends, List.append_nil, Bool.or_false]
  | cons read reads ih =>
      cases read with
      | bytes chunk =>
          rw [readStream, ih h.of_cons]
          simp only [gathered, ends, List.append_assoc]
      | interrupted =>
          rw [readStream, ih h.of_cons]
          simp only [gathered, ends]
      | ended | reset =>
          simp only [readStream, gathered, ends, List.append_nil, Bool.or_true]
      | failed text => exact absurd List.mem_cons_self (h text)

/-! ### Draining it -/

/-- A drain cuts what was left together with what it reads. -/
theorem drain_eq (h : Sound reads) (hopen : s.farClosed = false) :
    let found := Frames.cut (s.unframed ++ gathered reads)
    s.drain reads = (found.verdict, { s with
      pending := s.pending ++ found.frames.map Incoming.reply
      unframed := found.rest
      farClosed := ends reads }) := by
  simp only [drain, hopen, Bool.false_eq_true, if_false, readStream_eq h, queueFrames,
    Bool.false_or, Frames.verdict]
  cases (Frames.cut (s.unframed ++ gathered reads)).wrongSize <;> rfl

theorem drain_of_farClosed (h : s.farClosed = true) : s.drain reads = (.ok (), s) := if_pos h

/-- Drains the stream part by part. -/
def drainEach : List (List StreamRead) → Sockets → List (Except LinkError Unit) × Sockets
  | [], s => ([], s)
  | reads :: later, s =>
    let (result, s) := s.drain reads
    let (results, s) := drainEach later s
    (result :: results, s)

variable {drains : List (List StreamRead)}

theorem drainEach_of_farClosed (h : s.farClosed = true) :
    s.drainEach drains = (List.replicate drains.length (.ok ()), s) := by
  induction drains with
  | nil => rfl
  | cons reads later ih => simp only [drainEach, drain_of_farClosed h, ih, List.length_cons,
      List.replicate_succ]

/-- Whatever the parts, all of them together cut the whole stream. -/
theorem drainEach_eq (h : Sound drains.flatten) (hopen : s.farClosed = false)
    (hcut : (Frames.cut s.unframed).frames = []) :
    let found := Frames.cut (s.unframed ++ gathered drains.flatten)
    (s.drainEach drains).2 = { s with
      pending := s.pending ++ found.frames.map Incoming.reply
      unframed := found.rest
      farClosed := ends drains.flatten } := by
  induction drains generalizing s with
  | nil =>
      simp only [drainEach, List.flatten_nil, gathered, ends, List.append_nil, hcut,
        Frames.rest_of_frames_eq_nil hcut, List.map_nil, ← hopen]
  | cons reads later ih =>
      obtain ⟨hreads, hlater⟩ := sound_append.1 h
      simp only [drainEach, drain_eq hreads hopen, List.flatten_cons, gathered_append hreads,
        ends_append hreads]
      cases hends : ends reads with
      | true =>
          rw [drainEach_of_farClosed rfl]
          simp only [if_true, List.append_nil, Bool.true_or]
      | false =>
          -- what is left of the first part goes before the second
          rw [ih hlater rfl (by rw [Frames.cut_rest])]
          simp only [Bool.false_eq_true, if_false, Bool.false_or, ← List.append_assoc]
          rw [Frames.cut_append (s.unframed ++ gathered reads)]
          simp only [List.map_append, List.append_assoc]

/-- A part can fail only with the wrong size that the whole stream has. -/
theorem wrongSize_of_mem_drainEach {err : LinkError} (h : Sound drains.flatten)
    (hopen : s.farClosed = false) (hmem : .error err ∈ (s.drainEach drains).1) :
    ∃ n, (Frames.cut (s.unframed ++ gathered drains.flatten)).wrongSize = some n ∧
      err = .invalidFrame n := by
  induction drains generalizing s with
  | nil => cases hmem
  | cons reads later ih =>
      obtain ⟨hreads, hlater⟩ := sound_append.1 h
      simp only [drainEach, drain_eq hreads hopen] at hmem
      simp only [List.flatten_cons, gathered_append hreads, ← List.append_assoc]
      rcases List.mem_cons.1 hmem with hhead | htail
      · obtain ⟨n, hwrong, herr⟩ := Frames.verdict_eq_error_iff.1 hhead.symm
        exact ⟨n, by rw [Frames.cut_of_wrongSize hwrong], herr⟩
      · cases hends : ends reads with
        | true =>
            rw [drainEach_of_farClosed hends] at htail
            cases (List.mem_replicate.1 htail).2
        | false =>
            obtain ⟨n, hwrong, herr⟩ := ih hlater hends htail
            exact ⟨n, by rw [Frames.cut_append]; exact hwrong, herr⟩

/-- A wrong size that the whole stream has makes some part fail, if it was not there before. -/
theorem mem_drainEach_of_wrongSize {n : Nat} (h : Sound drains.flatten)
    (hopen : s.farClosed = false) (hbefore : (Frames.cut s.unframed).wrongSize = none)
    (hwrong : (Frames.cut (s.unframed ++ gathered drains.flatten)).wrongSize = some n) :
    .error (.invalidFrame n) ∈ (s.drainEach drains).1 := by
  induction drains generalizing s with
  | nil =>
      rw [List.flatten_nil, gathered, List.append_nil, hbefore] at hwrong
      cases hwrong
  | cons reads later ih =>
      obtain ⟨hreads, hlater⟩ := sound_append.1 h
      simp only [List.flatten_cons, gathered_append hreads, ← List.append_assoc] at hwrong
      simp only [drainEach, drain_eq hreads hopen]
      rcases hfirst : (Frames.cut (s.unframed ++ gathered reads)).wrongSize with _ | m
      · cases hends : ends reads with
        | true =>
            rw [hends, if_pos rfl, List.append_nil, hfirst] at hwrong
            cases hwrong
        | false =>
            rw [hends, if_neg Bool.false_ne_true, Frames.cut_append] at hwrong
            exact List.mem_cons_of_mem _ (ih hlater rfl (by rw [Frames.cut_rest, hfirst]) hwrong)
      · rw [Frames.cut_of_wrongSize hfirst] at hwrong
        obtain rfl := Option.some.inj hwrong
        exact List.mem_cons.2 (.inl (Frames.verdict_eq_error_iff.2 ⟨_, hfirst, rfl⟩).symm)

end Sockets
end ArmControl
