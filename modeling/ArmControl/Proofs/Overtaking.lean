import ArmControl.Proofs.Reassembly

/-! # Frames and the fault behind them

A stream brings whole frames and then a header that names a wrong size.  The look that meets the
header queues the frames that have come with it, but fails at once.  So the client is told of the
fault after the frames of the looks before, and before those that came together with the header
(`framing_fault_overtakes`): the fault overtakes frames just if some of them came with it. -/

namespace ArmControl

open StreamRead

/-- The client wakes up for bytes of the stream, or for nothing. -/
structure Wake.Quiet (w : Wake) : Prop where
  sound : Sound w.reads
  goesOn : ends w.reads = false
  noDatagram : ∃ stream, w = .news stream []

/-- All bytes of the stream that some wakings bring. -/
def Wake.brought (wakes : List Wake) : Bytes := gathered (wakes.flatMap reads)

/-- That the size of a frame is wrong, as an answer. -/
abbrev Answer.fault (size : Nat) : Answer := .error (.invalidFrame size)

/-- Frames as the answers that bring them. -/
def Answer.ofFrames (frames : List Bytes) : List Answer :=
  frames.map fun frame => .ok (.reply frame)

theorem Answer.ofFrames_append (a b : List Bytes) : ofFrames (a ++ b) = ofFrames a ++ ofFrames b :=
  List.map_append

/-! ### A wrong size behind whole frames -/

namespace Frames

variable {frames : List Bytes} {bad stream more : Bytes} {size : Nat}

theorem cut_of_wrong (h : Header.declaredSize? bad = some size)
    (hwrong : ¬ (12 ≤ size ∧ size ≤ 15)) : cut bad = ⟨[], bad, some size⟩ := by
  rw [cut, h]
  exact dif_neg fun hsize => hwrong (isReplySize_iff.1 hsize)

variable (hframes : ∀ frame ∈ frames, Whole frame) (hsize : Header.declaredSize? bad = some size)
  (hwrong : ¬ (12 ≤ size ∧ size ≤ 15)) (hcome : stream <+: frames.flatten ++ bad)
include hframes hsize hwrong hcome

/-- The frames that have come are the first ones. -/
theorem cut_frames_prefix : (cut stream).frames <+: frames := by
  obtain ⟨more, hmore⟩ := hcome
  have hcut := cut_flatten hframes bad
  rw [cut_of_wrong hsize hwrong, List.append_nil, ← hmore, cut_append] at hcut
  exact ⟨_, congrArg Frames.frames hcut⟩

/-- The fault is met when its header has come, behind all frames. -/
theorem cut_of_header (h : frames.flatten.length + 12 ≤ stream.length) :
    (cut stream).frames = frames ∧ (cut stream).wrongSize = some size := by
  obtain ⟨front, rfl⟩ : frames.flatten <+: stream :=
    List.prefix_of_prefix_length_le (List.prefix_append _ _) hcome (by omega)
  obtain ⟨more, rfl⟩ := (List.prefix_append_right_inj _).1 hcome
  rw [List.length_append] at h
  rw [Header.declaredSize?_append (by omega)] at hsize
  rw [cut_flatten hframes, cut_of_wrong hsize hwrong, List.append_nil]
  exact ⟨rfl, rfl⟩

/-- The fault is not met before its header has come. -/
theorem wrongSize_of_no_header (h : stream.length < frames.flatten.length + 12) :
    (cut stream).wrongSize = none := by
  rcases hmet : (cut stream).wrongSize with _ | n
  · rfl
  · obtain ⟨more, hmore⟩ := hcome
    have hcut := cut_of_wrongSize hmet more
    rw [hmore, cut_flatten hframes, cut_of_wrong hsize hwrong, List.append_nil] at hcut
    have hall : frames = (cut stream).frames := congrArg Frames.frames hcut
    have hlong := (Header.declaredSize?_eq_some_iff.1 (wrongSize_eq_some_iff.1 hmet).1).1
    have hlength := congrArg List.length (flatten_cut stream)
    rw [← hall, List.length_append] at hlength
    omega

end Frames
/-! ### Looking at a stream -/

namespace Wake

variable {w : Wake} {a b : List Wake}

theorem sound_of_quiet (h : ∀ w ∈ a, w.Quiet) :
    Sound (a.flatMap reads) ∧ ends (a.flatMap reads) = false := by
  induction a with
  | nil => exact ⟨nofun, rfl⟩
  | cons w a ih =>
      obtain ⟨hw, ha⟩ := List.forall_mem_cons.1 h
      obtain ⟨hsound, hends⟩ := ih ha
      rw [List.flatMap_cons, ends_append hw.sound, hw.goesOn, hends]
      exact ⟨sound_append.2 ⟨hw.sound, hsound⟩, rfl⟩

theorem brought_append (h : ∀ w ∈ a, w.Quiet) : brought (a ++ b) = brought a ++ brought b := by
  obtain ⟨hsound, hends⟩ := sound_of_quiet h
  simp only [brought, List.flatMap_append, gathered_append hsound, hends, Bool.false_eq_true,
    if_false]

theorem brought_cons (h : w.Quiet) : brought (w :: b) = gathered w.reads ++ brought b := by
  simp only [brought, List.flatMap_cons, gathered_append h.sound, h.goesOn, Bool.false_eq_true,
    if_false]

end Wake

namespace Sockets

variable {s : Sockets} {w : Wake} {wakes : List Wake} {n : Nat}

/-- A look at the stream tells of the frames that have become whole, and before them of a wrong size
that is in front then, unless there is no news of the stream. -/
theorem looks_cons (h : w.Quiet) (hs : s.Awaits) (later : List Wake) :
    let found := Frames.cut (s.unframed ++ gathered w.reads)
    ∃ result next, (s.looks (w :: later)).1 =
        told result (found.frames.map .reply) ++ (looks later next).1 ∧
      (result = found.verdict ∨ result = .ok () ∧ gathered w.reads = []) ∧
      next.Awaits ∧ next.unframed = found.rest := by
  obtain ⟨hsound, hgoesOn, stream, rfl⟩ := h
  cases stream with
  | none =>
      refine ⟨.ok (), s, ?_, .inr ⟨rfl, rfl⟩, hs, ?_⟩
      · simp only [looks, look, Option.elim, drainDatagrams, Wake.reads, gathered, List.append_nil,
          hs.cut, hs.pending, emptied_of_pending hs.pending, List.map_nil]
      · simp only [Wake.reads, gathered, List.append_nil, Frames.rest_of_frames_eq_nil hs.cut]
  | some reads =>
      replace hsound : Sound reads := hsound
      have hdrain := drain_eq hsound hs.goesOn
      simp only [hs.pending, List.nil_append] at hdrain
      refine ⟨(Frames.cut (s.unframed ++ gathered reads)).verdict, (s.drain reads).2.emptied, ?_,
        .inl rfl, ⟨rfl, ?_, ?_⟩, ?_⟩
      · simp only [looks, look, Option.elim, hdrain, Wake.reads]
        rcases (Frames.cut (s.unframed ++ gathered reads)).verdict with err | ok
        · rfl
        · rfl
      · rw [hdrain]
        exact hgoesOn
      · simp only [emptied, hdrain, Frames.cut_rest]
      · rw [hdrain]
        rfl

theorem told_ok (frames : List Bytes) :
    told (.ok ()) (frames.map .reply) = Answer.ofFrames frames := List.map_map ..

theorem told_error (err : LinkError) (frames : List Bytes) :
    told (.error err) (frames.map .reply) = .error err :: Answer.ofFrames frames :=
  congrArg _ (told_ok frames)

/-- As long as no wrong size is met, looking tells of the frames. -/
theorem looks_of_right (h : ∀ w ∈ wakes, w.Quiet) (hs : s.Awaits)
    (hright : (Frames.cut (s.unframed ++ Wake.brought wakes)).wrongSize = none) :
    (s.looks wakes).1 =
      Answer.ofFrames (Frames.cut (s.unframed ++ Wake.brought wakes)).frames := by
  induction wakes generalizing s with
  | nil =>
      simp only [Wake.brought, List.flatMap_nil, gathered, List.append_nil, hs.cut]
      rfl
  | cons w later ih =>
      obtain ⟨hw, hlater⟩ := List.forall_mem_cons.1 h
      rw [Wake.brought_cons hw, ← List.append_assoc] at hright ⊢
      obtain ⟨result, next, hlooks, hresult, hnext, hrest⟩ := looks_cons hw hs later
      have hok : result = .ok () := by
        rcases hresult with rfl | ⟨rfl, -⟩
        · rw [Frames.verdict, Frames.wrongSize_eq_none_of_append hright]
        · rfl
      rw [Frames.cut_append, ← hrest] at hright ⊢
      rw [hlooks, hok, told_ok, ih hlater hnext hright]
      exact (Answer.ofFrames_append ..).symm

/-- Behind a wrong size, looking tells of nothing else. -/
theorem looks_of_wrong (h : ∀ w ∈ wakes, w.Quiet) (hs : s.Awaits)
    (hwrong : (Frames.cut s.unframed).wrongSize = some n) :
    ∃ again, (s.looks wakes).1 = List.replicate again (.fault n) := by
  induction wakes generalizing s with
  | nil => exact ⟨0, rfl⟩
  | cons w later ih =>
      obtain ⟨hw, hlater⟩ := List.forall_mem_cons.1 h
      obtain ⟨result, next, hlooks, hresult, hnext, hrest⟩ := looks_cons hw hs later
      have hmore := Frames.cut_of_wrongSize hwrong (gathered w.reads)
      rw [hs.cut, Frames.rest_of_frames_eq_nil hs.cut] at hmore
      rw [hmore] at hlooks hresult hrest
      obtain ⟨again, hagain⟩ := ih hlater hnext (by rw [hrest, hmore])
      rw [hlooks, hagain]
      rcases hresult with rfl | ⟨rfl, -⟩
      · exact ⟨again + 1, rfl⟩
      · exact ⟨again, rfl⟩

/-- The look that meets a wrong size tells of it, before the frames that have come with it. -/
theorem looks_of_fault (h : ∀ w ∈ wakes, w.Quiet) (hs : s.Awaits)
    (hright : (Frames.cut s.unframed).wrongSize = none)
    (hwrong : (Frames.cut (s.unframed ++ Wake.brought wakes)).wrongSize = some n) :
    ∃ before w after, wakes = before ++ w :: after ∧
      let early := Frames.cut (s.unframed ++ Wake.brought before)
      let all := Frames.cut (s.unframed ++ Wake.brought (before ++ [w]))
      early.wrongSize = none ∧ all.wrongSize = some n ∧
        ∃ late again, all.frames = early.frames ++ late ∧
          (s.looks wakes).1 = Answer.ofFrames early.frames ++
            .fault n :: Answer.ofFrames late ++
              List.replicate again (.fault n) := by
  induction wakes generalizing s with
  | nil =>
      rw [Wake.brought, List.flatMap_nil, gathered, List.append_nil, hright] at hwrong
      cases hwrong
  | cons w later ih =>
      obtain ⟨hw, hlater⟩ := List.forall_mem_cons.1 h
      rw [Wake.brought_cons hw, ← List.append_assoc] at hwrong
      obtain ⟨result, next, hlooks, hresult, hnext, hrest⟩ := looks_cons hw hs later
      rcases hfirst : (Frames.cut (s.unframed ++ gathered w.reads)).wrongSize with _ | m
      · -- the fault is met later
        have hcons (wakes : List Wake) : Frames.cut (s.unframed ++ Wake.brought (w :: wakes)) =
            { Frames.cut (next.unframed ++ Wake.brought wakes) with
              frames := (Frames.cut (s.unframed ++ gathered w.reads)).frames ++
                (Frames.cut (next.unframed ++ Wake.brought wakes)).frames } := by
          rw [Wake.brought_cons hw, ← List.append_assoc, Frames.cut_append, ← hrest]
        have hok : result = .ok () := by
          rcases hresult with rfl | ⟨rfl, -⟩
          · rw [Frames.verdict, hfirst]
          · rfl
        rw [Frames.cut_append, ← hrest] at hwrong
        obtain ⟨before, v, after, rfl, hearly, hall, late, again, hframes, htold⟩ :=
          ih hlater hnext (by rw [hrest, Frames.cut_rest, hfirst]) hwrong
        refine ⟨w :: before, v, after, rfl, ?_⟩
        simp only [List.cons_append, hcons]
        refine ⟨hearly, hall, late, again, by rw [hframes, List.append_assoc], ?_⟩
        rw [hlooks, hok, told_ok, htold, Answer.ofFrames_append]
        simp only [List.append_assoc]
      · -- it is met here
        rw [Frames.cut_of_wrongSize hfirst] at hwrong
        obtain rfl := Option.some.inj hwrong
        have herror : result = .error (.invalidFrame m) := by
          rcases hresult with rfl | ⟨-, hquiet⟩
          · rw [Frames.verdict, hfirst]
          · rw [hquiet, List.append_nil, hright] at hfirst
            cases hfirst
        obtain ⟨again, hagain⟩ := looks_of_wrong hlater hnext
          (by rw [hrest, Frames.cut_rest, hfirst])
        have hnothing : Wake.brought [] = [] := rfl
        have hall : Wake.brought [w] = gathered w.reads := by
          rw [Wake.brought_cons hw, hnothing, List.append_nil]
        refine ⟨[], w, later, rfl, ?_⟩
        simp only [hnothing, List.nil_append, List.append_nil, hall, hs.cut]
        refine ⟨hright, hfirst, _, again, rfl, ?_⟩
        rw [hlooks, herror, told_error, hagain]
        rfl

/-! ### Frames and the fault behind them -/

/-- The header that names a wrong size has come, behind the frames. -/
def HeaderCome (frames : List Bytes) (wakes : List Wake) : Prop :=
  frames.flatten.length + 12 ≤ (Wake.brought wakes).length

instance (frames : List Bytes) (wakes : List Wake) : Decidable (HeaderCome frames wakes) :=
  Nat.decLe ..

section Stream

variable {frames : List Bytes} {bad : Bytes} {size : Nat}
  (hframes : ∀ frame ∈ frames, Frames.Whole frame)
  (hsize : Header.declaredSize? bad = some size) (hwrong : ¬ (12 ≤ size ∧ size ≤ 15))
  (hquiet : ∀ w ∈ wakes, w.Quiet) (hcome : Wake.brought wakes <+: frames.flatten ++ bad)
include hframes hsize hwrong hquiet hcome

/-- Before the header has come, looking tells of the frames that have. -/
theorem looks_before_header (hnot : ¬ HeaderCome frames wakes) :
    ∃ early late rest, frames = early ++ late ∧ Frames.Splits (Wake.brought wakes) early rest ∧
      (looks wakes {}).1 = Answer.ofFrames early := by
  obtain ⟨late, hlate⟩ := Frames.cut_frames_prefix hframes hsize hwrong hcome
  have hright := Frames.wrongSize_of_no_header hframes hsize hwrong hcome (Nat.lt_of_not_le hnot)
  exact ⟨_, late, _, hlate.symm, Frames.splits_cut _,
    looks_of_right hquiet awaits_nothing hright⟩

/-- The look that meets the header tells of the fault before the frames that have come with it. -/
theorem looks_behind_header (hthere : HeaderCome frames wakes) :
    ∃ before w after, wakes = before ++ w :: after ∧
      ¬ HeaderCome frames before ∧ HeaderCome frames (before ++ [w]) ∧
      ∃ early late rest again, frames = early ++ late ∧
        Frames.Splits (Wake.brought before) early rest ∧
        (looks wakes {}).1 = Answer.ofFrames early ++ .fault size :: Answer.ofFrames late ++
          List.replicate again (.fault size) := by
  obtain ⟨-, hmet⟩ := Frames.cut_of_header hframes hsize hwrong hcome hthere
  obtain ⟨before, w, after, rfl, hearly, hcut, late, again, hlate, hlooks⟩ :=
    looks_of_fault hquiet awaits_nothing (by rw [Frames.cut_nil]) hmet
  simp only [List.nil_append] at hearly hcut hlate hlooks
  have hbefore : Wake.brought before <+: frames.flatten ++ bad := by
    rw [Wake.brought_append fun w hmem => hquiet w (List.mem_append_left _ hmem)] at hcome
    exact (List.prefix_append ..).trans hcome
  have hwith : Wake.brought (before ++ [w]) <+: frames.flatten ++ bad := by
    rw [List.append_cons] at hquiet hcome
    rw [Wake.brought_append fun w hmem => hquiet w (List.mem_append_left _ hmem)] at hcome
    exact (List.prefix_append ..).trans hcome
  have hnow : HeaderCome frames (before ++ [w]) := Nat.le_of_not_lt fun h => by
    rw [Frames.wrongSize_of_no_header hframes hsize hwrong hwith h] at hcut
    cases hcut
  have hnot : ¬ HeaderCome frames before := fun h => by
    rw [(Frames.cut_of_header hframes hsize hwrong hbefore h).2] at hearly
    cases hearly
  have hall := (Frames.cut_of_header hframes hsize hwrong hwith hnow).1
  exact ⟨before, w, after, rfl, hnot, hnow, _, late, _, again, hall.symm.trans hlate,
    Frames.splits_cut _, hlooks⟩

end Stream

/-! ### Receiving them -/

/-- The client is told all that the looks tell, and that is all. -/
theorem receiveEach_quiet {calls : List (List Wake)} (h : ∀ w ∈ calls.flatten, w.Quiet) :
    ∃ looked, calls.flatten = looked ++ (receiveEach calls [] {}).2.2 ∧
      Answer.untimed (receiveEach calls [] {}).1 ++
        (receiveEach calls [] {}).2.1.pending.map .ok = (looks looked {}).1 := by
  obtain ⟨looked, again, hlooked, hreceives⟩ :=
    receiveEach_receives (s := {}) ⟨rfl, rfl⟩ calls []
  rw [List.nil_append] at hlooked
  have hquiet : ∀ w ∈ looked, w.Quiet := fun w hmem => h w (hlooked ▸ List.mem_append_left _ hmem)
  -- the stream goes on, so the client is never told of its end
  have hgoesOn : (receiveEach calls [] {}).2.1.farClosed = false := by
    obtain ⟨hsound, hends⟩ := Wake.sound_of_quiet hquiet
    have hlooks := looks_replies hsound awaits_nothing
    exact (congrArg farClosed hreceives.emptied).trans (hlooks.2.1.trans hends)
  rcases Nat.eq_zero_or_pos again with rfl | hagain
  · exact ⟨looked, hlooked, hreceives.conserved.trans (List.append_nil _)⟩
  · rw [(hreceives.atEnd hagain).2] at hgoesOn
    cases hgoesOn

/-- The client was told of all frames before the fault behind them. -/
def InOrder (frames : List Bytes) (size : Nat) (answers : List Answer) : Prop :=
  ∃ again, Answer.untimed answers <+: Answer.ofFrames frames ++ List.replicate again (.fault size)

theorem fault_notMem_ofFrames (size : Nat) (frames : List Bytes) :
    .fault size ∉ Answer.ofFrames frames := by
  intro h
  obtain ⟨frame, -, hok⟩ := List.mem_map.1 h
  cases hok

/-- If the fault was told behind the first frames, all is in order just if there are no others. -/
theorem inOrder_iff {early late : List Bytes} {size again : Nat} {answers : List Answer}
    (htold : Answer.untimed answers <+: Answer.ofFrames early ++
      .fault size :: Answer.ofFrames late ++ List.replicate again (.fault size))
    (hfault : .fault size ∈ answers) : InOrder (early ++ late) size answers ↔ late = [] := by
  rw [List.append_assoc] at htold
  constructor
  · rintro ⟨k, horder⟩
    have hmem : .fault size ∈ Answer.untimed answers := Answer.mem_untimed.2 ⟨hfault, rfl⟩
    -- the answers are not frames only, so the fault stands right behind the first ones
    rcases List.prefix_or_prefix_of_prefix htold (List.prefix_append ..) with
      hframes | ⟨rest, hrest⟩
    · exact absurd (hframes.subset hmem) (fault_notMem_ofFrames _ _)
    · rw [← hrest] at htold horder hmem
      rw [List.prefix_append_right_inj] at htold
      rw [Answer.ofFrames_append, List.append_assoc, List.prefix_append_right_inj] at horder
      rcases rest with _ | ⟨first, rest⟩
      · rw [List.append_nil] at hmem
        exact absurd hmem (fault_notMem_ofFrames _ _)
      · obtain rfl := (List.cons_prefix_cons.1 htold).1
        cases late with
        | nil => rfl
        | cons frame late => cases (List.cons_prefix_cons.1 horder).1
  · rintro rfl
    rw [List.append_nil]
    exact ⟨again + 1, htold⟩

/-- As long as the header that names a wrong size has not come, the client is told of the frames
that have.  When a look has met it, the client is told of the frames of the looks before, then of
the fault, and only then of the frames that came with it.  So the fault overtakes frames, once it is
told, just if there are some of these. -/
theorem framing_fault_overtakes {frames : List Bytes} {bad : Bytes} {size : Nat}
    {calls : List (List Wake)} (hframes : ∀ frame ∈ frames, Frames.Whole frame)
    (hsize : Header.declaredSize? bad = some size) (hwrong : ¬ (12 ≤ size ∧ size ≤ 15))
    (hquiet : ∀ w ∈ calls.flatten, w.Quiet)
    (hcome : Wake.brought calls.flatten <+: frames.flatten ++ bad) :
    ∃ looked, calls.flatten = looked ++ (receiveEach calls [] {}).2.2 ∧
      let (answers, s, _) := receiveEach calls [] {}
      let told := Answer.untimed answers ++ s.pending.map .ok
      (¬ HeaderCome frames looked → ∃ early late rest, frames = early ++ late ∧
        Frames.Splits (Wake.brought looked) early rest ∧ told = Answer.ofFrames early) ∧
      (HeaderCome frames looked → ∃ before w after, looked = before ++ w :: after ∧
        ¬ HeaderCome frames before ∧ HeaderCome frames (before ++ [w]) ∧
        ∃ early late rest again, frames = early ++ late ∧
          Frames.Splits (Wake.brought before) early rest ∧
          told = Answer.ofFrames early ++ .fault size :: Answer.ofFrames late ++
            List.replicate again (.fault size) ∧
          (.fault size ∈ answers → (InOrder frames size answers ↔ late = []))) := by
  obtain ⟨looked, hlooked, htold⟩ := receiveEach_quiet hquiet
  have hquietLooked : ∀ w ∈ looked, w.Quiet := fun w hmem =>
    hquiet w (hlooked ▸ List.mem_append_left _ hmem)
  rw [hlooked, Wake.brought_append hquietLooked] at hcome
  have hcome := (List.prefix_append ..).trans hcome
  refine ⟨looked, hlooked, fun hnot => ?_, fun hthere => ?_⟩
  · obtain ⟨early, late, rest, hall, hsplits, hlooks⟩ :=
      looks_before_header hframes hsize hwrong hquietLooked hcome hnot
    exact ⟨early, late, rest, hall, hsplits, htold.trans hlooks⟩
  · obtain ⟨before, w, after, hsplit, hnot, hnow, early, late, rest, again, rfl, hsplits, hlooks⟩ :=
      looks_behind_header hframes hsize hwrong hquietLooked hcome hthere
    rw [hlooks] at htold
    exact ⟨before, w, after, hsplit, hnot, hnow, early, late, rest, again, rfl, hsplits, htold,
      inOrder_iff ⟨_, htold⟩⟩

/-- The header of a frame of four gigabytes. -/
def hugeHeader : Bytes := [4, 0, 0, 0, 1, 0, 0, 0, 255, 255, 255, 255]

/-- A whole frame and the header of a huge one, in one piece. -/
def frameAndHeader : Wake :=
  .news (some [.bytes ((Reply.stopMove .success).encode 9 ++ hugeHeader)]) []

theorem quiet_frameAndHeader : frameAndHeader.Quiet :=
  ⟨fun text => by simp [frameAndHeader, Wake.reads], rfl, _, rfl⟩

theorem framing_fault_overtakes_one :
    let frame := (Reply.stopMove .success).encode 9
    let (answers, s, _) := receiveEach [[frameAndHeader], []] [] {}
    (∀ f ∈ [frame], Frames.Whole f) ∧ Header.declaredSize? hugeHeader = some 4294967295 ∧
      Wake.brought [frameAndHeader] <+: [frame].flatten ++ hugeHeader ∧
      ∃ early late again, [frame] = early ++ late ∧
        Answer.untimed answers ++ s.pending.map .ok =
          Answer.ofFrames early ++ .fault 4294967295 :: Answer.ofFrames late ++
            List.replicate again (.fault 4294967295) := by
  intro frame
  have hwhole : ∀ f ∈ [frame], Frames.Whole f := fun f hf => by
    rw [List.mem_singleton.1 hf]
    exact Frames.whole_encode ..
  have hsize : Header.declaredSize? hugeHeader = some 4294967295 := by decide
  have hquiet : ∀ w ∈ [[frameAndHeader], []].flatten, w.Quiet := fun w hw =>
    List.mem_singleton.1 hw ▸ quiet_frameAndHeader
  have hcome : Wake.brought [frameAndHeader] <+: [frame].flatten ++ hugeHeader := by decide
  have hleft : (receiveEach [[frameAndHeader], []] [] {}).2.2 = [] := by decide +kernel
  obtain ⟨looked, hlooked, -, hmet⟩ :=
    framing_fault_overtakes hwhole hsize (by decide) hquiet hcome
  rw [hleft, List.append_nil] at hlooked
  obtain ⟨-, -, -, -, -, -, early, late, -, again, hframes, -, htold, -⟩ :=
    hmet (hlooked ▸ by decide)
  exact ⟨hwhole, hsize, hcome, early, late, again, hframes, htold⟩

/-- The client is told of the fault before the frame that has come with it. -/
theorem framing_fault_before_frame :
    let frame := (Reply.stopMove .success).encode 9
    let (answers, _, _) := receiveEach [[frameAndHeader], []] [] {}
    Frames.Whole frame ∧ frameAndHeader.Quiet ∧ HeaderCome [frame] [frameAndHeader] ∧
      answers = [.fault 4294967295, .ok (.reply frame)] ∧ ¬ InOrder [frame] 4294967295 answers := by
  intro frame
  have hwhole : Frames.Whole frame := Frames.whole_encode ..
  have hheader : Frames.cut hugeHeader = ⟨[], hugeHeader, some 4294967295⟩ :=
    Frames.cut_of_wrong (by decide) (by decide)
  have hcut : Frames.cut (frame ++ hugeHeader) = ⟨[frame], hugeHeader, some 4294967295⟩ := by
    rw [Frames.cut_whole hwhole, hheader]
  have hlook : look frameAndHeader {} = (.error (.invalidFrame 4294967295),
      { pending := [.reply frame], unframed := hugeHeader }) := by
    simp [look, frameAndHeader, drain, readStream, queueFrames, hcut, frame]
  have hanswers : (receiveEach [[frameAndHeader], []] [] {}).1 =
      [.fault 4294967295, .ok (.reply frame)] := by
    simp [receiveEach, receive, hlook]
  have hnot : ¬ InOrder [frame] 4294967295 (receiveEach [[frameAndHeader], []] [] {}).1 := by
    rw [hanswers]
    rintro ⟨again, horder⟩
    cases (List.cons_prefix_cons.1 horder).1
  exact ⟨hwhole, quiet_frameAndHeader, by decide, hanswers, hnot⟩

end Sockets
end ArmControl
