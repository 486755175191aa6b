import ArmControl.Proofs.Frames

/-! # The first fault of a message

What is received has to pass a list of `Check`s, one after the other: its length, what its header
says, and the one-byte fields in the order in which they stand.  A reader reports the first check
that is not passed (`FirstFault`).

The readers of numbers look at no length themselves and stop the program where the bytes end too
soon.  A format `Reads` a count of bytes and checks some of them: of so many bytes and more it reports
the fault of a check or none at all.  The formats of all messages are put together from the readings
of their fields, and `first_fault_reported` states for each reader which checks come before which,
and that whatever was received it stays within the bytes (`StaysWithin`): the check of the length
always comes before the first byte that would be missing. -/

namespace ArmControl

/-! ### Checks -/

/-- Something that has to hold of what was received, and what is reported otherwise. -/
structure Check where
  passes : Prop
  error : WireError

/-- This is reported by the first of the checks that is not passed. -/
inductive FirstFault : List Check → WireError → Prop
  | here {c : Check} {later : List Check} : ¬ c.passes → FirstFault (c :: later) c.error
  | later {c : Check} {later : List Check} {err : WireError} :
      c.passes → FirstFault later err → FirstFault (c :: later) err

namespace FirstFault

variable {c : Check} {cs ds : List Check} {err : WireError}

theorem not_nil : ¬ FirstFault [] err := nofun

theorem cons_iff : FirstFault (c :: cs) err ↔
    ¬ c.passes ∧ err = c.error ∨ c.passes ∧ FirstFault cs err := by
  constructor
  · rintro (hfails | ⟨hpasses, hlater⟩)
    · exact .inl ⟨hfails, rfl⟩
    · exact .inr ⟨hpasses, hlater⟩
  · rintro (⟨hfails, rfl⟩ | ⟨hpasses, hlater⟩)
    · exact .here hfails
    · exact .later hpasses hlater

/-- Either all checks are passed or there is a first one that is not. -/
theorem all_or_exists (cs : List Check) : (∀ c ∈ cs, c.passes) ∨ ∃ err, FirstFault cs err := by
  induction cs with
  | nil => exact .inl fun _ h => nomatch h
  | cons c cs ih =>
      by_cases hc : c.passes
      · rcases ih with hall | ⟨err, hfault⟩
        · exact .inl (List.forall_mem_cons.2 ⟨hc, hall⟩)
        · exact .inr ⟨err, .later hc hfault⟩
      · exact .inr ⟨c.error, .here hc⟩

theorem exists_mem (h : FirstFault cs err) : ∃ c ∈ cs, c.error = err := by
  induction h with
  | here _ => exact ⟨_, List.mem_cons_self, rfl⟩
  | later _ _ ih =>
      obtain ⟨c, hc, herr⟩ := ih
      exact ⟨c, List.mem_cons_of_mem _ hc, herr⟩

theorem not_all (h : FirstFault cs err) : ¬ ∀ c ∈ cs, c.passes := by
  induction h with
  | here hfails => exact fun hall => hfails (hall _ List.mem_cons_self)
  | later _ _ ih => exact fun hall => ih fun c hc => hall c (List.mem_cons_of_mem _ hc)

/-- Behind checks that are all passed, the checks that follow decide. -/
theorem append_iff (hall : ∀ c ∈ cs, c.passes) : FirstFault (cs ++ ds) err ↔ FirstFault ds err := by
  induction cs with
  | nil => rfl
  | cons c cs ih =>
      obtain ⟨hc, hcs⟩ := List.forall_mem_cons.1 hall
      rw [List.cons_append, cons_iff, ih hcs]
      simp [hc]

/-- Behind a check that is not passed, nothing that follows counts. -/
theorem append_iff_left {err' : WireError} (h : FirstFault cs err') :
    FirstFault (cs ++ ds) err ↔ FirstFault cs err := by
  induction h with
  | here hfails => simp [cons_iff, hfails]
  | later hpasses _ ih => rw [List.cons_append, cons_iff, cons_iff, ih]

end FirstFault

/-- Reading came to an end of its own and did not run out of bytes. -/
def StaysWithin {α : Type} (r : Except WireError α) : Prop :=
  ∀ requested available, r ≠ .error (.underrun requested available)

/-- No check stands for the end of the bytes. -/
def Reported (cs : List Check) : Prop :=
  ∀ c ∈ cs, ∀ requested available, c.error ≠ .underrun requested available

namespace Reported

variable {c : Check} {cs ds : List Check}

theorem nil : Reported [] := nofun

theorem cons (hc : ∀ requested available, c.error ≠ .underrun requested available)
    (hcs : Reported cs) : Reported (c :: cs) := List.forall_mem_cons.2 ⟨hc, hcs⟩

theorem append (hcs : Reported cs) (hds : Reported ds) : Reported (cs ++ ds) :=
  List.forall_mem_append.2 ⟨hcs, hds⟩

/-- A reader that reports the first fault and nothing else does not run out of bytes. -/
theorem staysWithin {α : Type} {r : Except WireError α} (hcs : Reported cs)
    (h : ∀ err, r = .error err ↔ FirstFault cs err) : StaysWithin r := by
  intro requested available hr
  obtain ⟨c, hc, herr⟩ := ((h _).1 hr).exists_mem
  exact hcs c hc requested available herr

end Reported

/-- A one-byte field, and the codes that may stand there. -/
structure ByteField where
  name : WireField
  accepts : UInt8 → Prop

namespace ByteField

/-- The field holds the code of a value. -/
def coded (α : Type) [Coded α UInt8] (name : WireField) : ByteField :=
  ⟨name, fun b => ∃ a : α, Coded.code a = b⟩

def flag : ByteField := ⟨.finished, fun b => b = 0 ∨ b = 1⟩

def check (field : ByteField) (b : UInt8) : Check := ⟨field.accepts b, .invalidValue field.name b⟩

/-- The checks of fields at their places among the bytes. -/
def checks (fields : List (Nat × ByteField)) (bytes : Bytes) : List Check :=
  fields.filterMap fun (place, field) => bytes[place]?.map field.check

/-- The same fields behind `count` bytes. -/
def behind (count : Nat) (fields : List (Nat × ByteField)) : List (Nat × ByteField) :=
  fields.map fun (place, field) => (count + place, field)

theorem checks_append (fs gs : List (Nat × ByteField)) (bytes : Bytes) :
    checks (fs ++ gs) bytes = checks fs bytes ++ checks gs bytes := List.filterMap_append

theorem checks_behind (count : Nat) (fields : List (Nat × ByteField)) (bytes : Bytes) :
    checks (behind count fields) bytes = checks fields (bytes.drop count) := by
  simp only [checks, behind, List.filterMap_map, List.getElem?_drop]
  rfl

theorem reported_checks (fields : List (Nat × ByteField)) (bytes : Bytes) :
    Reported (checks fields bytes) := by
  intro c hc requested available
  obtain ⟨⟨place, field⟩, -, hfield⟩ := List.mem_filterMap.1 hc
  obtain ⟨b, -, rfl⟩ := Option.map_eq_some_iff.1 hfield
  exact nofun

end ByteField

/-- A message that takes up the whole of the bytes is first of the right length. -/
def wholeChecks (size : Nat) (fields : List (Nat × ByteField)) (bytes : Bytes) : List Check :=
  ⟨bytes.length = size, .invalidLength size bytes.length⟩ :: ByteField.checks fields bytes

theorem reported_wholeChecks (size : Nat) (fields : List (Nat × ByteField)) (bytes : Bytes) :
    Reported (wholeChecks size fields bytes) := .cons nofun (ByteField.reported_checks fields bytes)

/-! ### What a format reads -/

namespace Format

variable {α β : Type} {f : Format α} {g : Format β} {m n : Nat} {fs gs : List (Nat × ByteField)}

/-- A number is read of bytes that suffice, and otherwise the program stops. -/
theorem staysWithin_uint_iff {width : Nat} {bytes : Bytes} :
    StaysWithin ((uint width).get bytes) ↔ width ≤ bytes.length := by
  by_cases hlength : width ≤ bytes.length
  · simp [StaysWithin, uint, hlength]
  · simp only [uint, hlength, iff_false]
    exact fun h => h _ _ rfl

/-- Of `size` bytes and more, the format reads just the first `size`, and refuses them just if the
check of one of these fields is not passed, for the first of them. -/
structure Reads (f : Format α) (size : Nat) (fields : List (Nat × ByteField)) : Prop where
  rest_eq : ∀ {bytes a rest}, size ≤ bytes.length → f.get bytes = .ok (a, rest) →
    rest = bytes.drop size
  error_iff : ∀ {bytes}, size ≤ bytes.length → ∀ err,
    f.get bytes = .error err ↔ FirstFault (ByteField.checks fields bytes) err

theorem reads_uint (width : Nat) : (uint width).Reads width [] where
  rest_eq hlength hget := by
    simp only [uint, if_pos hlength, Except.ok.injEq, Prod.mk.injEq] at hget
    exact hget.2.symm
  error_iff hlength err := by simp [uint, if_pos hlength, ByteField.checks, FirstFault.not_nil]

theorem Reads.iso (hf : f.Reads m fs) (forth : α → β) (back : β → α) :
    (f.iso forth back).Reads m fs where
  rest_eq {bytes b rest} hlength hget := by
    simp only [Format.iso] at hget
    split at hget
    · cases hget
    · rename_i a rest' ha
      obtain ⟨-, rfl⟩ := Prod.mk.inj (Except.ok.inj hget)
      exact hf.rest_eq hlength ha
  error_iff {bytes} hlength err := by
    rw [← hf.error_iff hlength err]
    simp only [Format.iso]
    cases f.get bytes <;> simp

theorem Reads.pair (hf : f.Reads m fs) (hg : g.Reads n gs) :
    (f.pair g).Reads (m + n) (fs ++ ByteField.behind m gs) where
  rest_eq {bytes p rest} hlength hget := by
    simp only [Format.pair] at hget
    split at hget
    · cases hget
    · rename_i a rest₁ ha
      obtain rfl := hf.rest_eq (by omega) ha
      split at hget
      · cases hget
      · rename_i b rest₂ hb
        obtain ⟨-, rfl⟩ := Prod.mk.inj (Except.ok.inj hget)
        rw [hg.rest_eq (by rw [List.length_drop]; omega) hb, List.drop_drop]
  error_iff {bytes} hlength err := by
    have hshort : n ≤ (bytes.drop m).length := by
      rw [List.length_drop]
      omega
    rw [ByteField.checks_append, ByteField.checks_behind]
    simp only [Format.pair]
    rcases FirstFault.all_or_exists (ByteField.checks fs bytes) with hall | ⟨err', hfault⟩
    · rcases ha : f.get bytes with err₁ | ⟨a, rest⟩
      · exact absurd hall ((hf.error_iff (by omega) err₁).1 ha).not_all
      · obtain rfl := hf.rest_eq (by omega) ha
        rw [FirstFault.append_iff hall, ← hg.error_iff hshort]
        rcases hb : g.get (bytes.drop m) with _ | _ <;> simp [hb]
    · -- the second value is not read, and the checks behind do not count
      have ha := (hf.error_iff (by omega) err').2 hfault
      rw [FirstFault.append_iff_left hfault, ← hf.error_iff (by omega), ha]
      simp

theorem Reads.vector (hf : f.Reads m []) (n : Nat) : (f.vector n).Reads (n * m) [] := by
  induction n with
  | zero =>
      rw [Nat.zero_mul]
      exact {
        rest_eq := fun _ hget => (Prod.mk.inj (Except.ok.inj hget)).2.symm
        error_iff := fun _ _ => by simp [Format.vector, ByteField.checks, FirstFault.not_nil] }
  | succ n ih =>
      rw [Nat.succ_mul]
      exact (ih.pair hf).iso _ _

/-- A byte that `forth` refuses is reported with the name of its field. -/
theorem reads_byte {forth : UInt8 → Except WireError α} {back : α → UInt8} (field : ByteField)
    (h : ∀ b err, forth b = .error err ↔ ¬ field.accepts b ∧ err = .invalidValue field.name b) :
    (uint8.refine forth back).Reads 1 [(0, field)] := by
  have hget (b : UInt8) (rest : Bytes) : uint8.get (b :: rest) = .ok (b, rest) := by
    simp [uint8, Format.iso, uint, Wire.ofLittleEndian]
  refine ⟨fun {bytes a rest} hlength hget' => ?_, fun {bytes} hlength err => ?_⟩
  all_goals
    obtain ⟨b, rest₀, rfl⟩ := List.exists_cons_of_length_pos (show 0 < bytes.length from hlength)
  · simp only [Format.refine, hget] at hget'
    split at hget'
    · cases hget'
    · exact (Prod.mk.inj (Except.ok.inj hget')).2.symm
  · have hchecks : ByteField.checks [(0, field)] (b :: rest₀) = [field.check b] := rfl
    have hfault : FirstFault [field.check b] err ↔ forth b = .error err := by
      rw [FirstFault.cons_iff, h]
      simp [FirstFault.not_nil, ByteField.check]
    rw [hchecks, hfault]
    simp only [Format.refine, hget]
    rcases hb : forth b with _ | _ <;> simp

theorem reads_coded (α : Type) [Coded α UInt8] (name : WireField) :
    (coded name : Format α).Reads 1 [(0, .coded α name)] := by
  refine reads_byte _ fun b err => ?_
  have hok (a : α) : decodeField name b = .ok a ↔ Coded.code a = b := decodeField_eq_ok_iff
  simp only [ByteField.coded, ← hok]
  unfold decodeField
  cases Coded.ofCode? α b <;> simp [eq_comm]

/-- The whole of the bytes is refused for its length, or for the first field that is not right. -/
theorem Reads.getAll_error_iff (hf : f.Reads m fs) {bytes : Bytes} {err : WireError} :
    f.getAll m bytes = .error err ↔ FirstFault (wholeChecks m fs bytes) err := by
  rw [wholeChecks, FirstFault.cons_iff, getAll]
  by_cases hlength : bytes.length = m
  · rw [if_pos hlength, ← hf.error_iff (Nat.le_of_eq hlength.symm)]
    cases f.get bytes <;> simp [hlength]
  · rw [if_neg hlength]
    simp [hlength, eq_comm]

theorem map_eq_error_iff {r : Except WireError α} {c : α → β} {err : WireError} :
    r.map c = .error err ↔ r = .error err := by
  cases r <;> simp [Except.map]

end Format

theorem Binary64.reads_format : format.Reads 8 [] :=
  ((Format.reads_uint 8).iso _ _).iso _ _

/-! ### Datagrams -/

namespace State

/-- The one-byte fields of a state, each at its place. -/
def fields : List (Nat × ByteField) :=
  [(304, .coded MotionMode .motionMode), (305, .coded ControllerMode .controllerMode),
    (306, .coded RobotMode .robotMode)]

def checks (datagram : Bytes) : List Check := wholeChecks 307 fields datagram

theorem reads_format : format.Reads 307 fields := by
  have hvector (n : Nat) := Binary64.reads_format.vector n
  exact ((((Format.reads_uint 8).iso _ _).pair <| (hvector _).pair <| (hvector _).pair <|
    (hvector _).pair <| (hvector _).pair <| (Format.reads_coded _ _).pair <|
      (Format.reads_coded _ _).pair (Format.reads_coded _ _)).iso _ _)

theorem decode_error_iff (datagram : Bytes) (err : WireError) :
    decode datagram = .error err ↔ FirstFault (checks datagram) err := reads_format.getAll_error_iff

end State

namespace Command

def fields : List (Nat × ByteField) := [(296, .flag)]

def checks (datagram : Bytes) : List Check := wholeChecks 353 fields datagram

theorem reads_flag : flag.Reads 1 [(0, .flag)] := by
  refine Format.reads_byte _ fun b err => ?_
  unfold decodeFlag
  by_cases hzero : b = 0
  · simp [hzero, ByteField.flag]
  · by_cases hone : b = 1
    · simp [hone, ByteField.flag]
    · simp [hzero, hone, ByteField.flag, eq_comm]

theorem reads_format : format.Reads 353 fields := by
  have hvector (n : Nat) := Binary64.reads_format.vector n
  exact ((((Format.reads_uint 8).iso _ _).pair <| (hvector _).pair <| (hvector _).pair <|
    (hvector _).pair <| (hvector _).pair <| reads_flag.pair (hvector _)).iso _ _)

theorem decode_error_iff (datagram : Bytes) (err : WireError) :
    decode datagram = .error err ↔ FirstFault (checks datagram) err := reads_format.getAll_error_iff

end Command

/-! ### Frames -/

theorem Wire.capacity_le {k m : Nat} (h : k ≤ m) : capacity k ≤ capacity m := by
  induction h with
  | refl => exact Nat.le_refl _
  | step _ ih =>
      rw [capacity]
      omega

namespace Frame

/-- The number in four bytes of a frame. -/
def word (place : Nat) (frame : Bytes) : Nat := Wire.ofLittleEndian ((frame.drop place).take 4)

/-- The code of the kind of a frame. -/
def code (frame : Bytes) : UInt32 := UInt32.ofNat (word 0 frame)

/-- What every frame has to pass: it holds a header, of a kind that exists, which names the length
of the frame. -/
def checks (frame : Bytes) : List Check :=
  [⟨12 ≤ frame.length, .invalidLength 12 frame.length⟩,
    ⟨∃ kind : FrameKind, Coded.code kind = code frame, .unknownCommand (code frame)⟩,
    ⟨word 8 frame = frame.length, .sizeMismatch (word 8 frame) frame.length⟩]

theorem reported_checks (frame : Bytes) : Reported (checks frame) :=
  .cons nofun (.cons nofun (.cons nofun .nil))

theorem get_word {frame : Bytes} {place : Nat} (h : place + 4 ≤ frame.length) :
    Format.uint32.get (frame.drop place) =
      .ok (UInt32.ofNat (word place frame), frame.drop (place + 4)) := by
  have hshort : 4 ≤ (frame.drop place).length := by
    rw [List.length_drop]
    omega
  simp only [Format.uint32, Format.iso, Format.uint, if_pos hshort, word, List.drop_drop]

theorem get_header {frame : Bytes} (h : 12 ≤ frame.length) :
    Header.format.get frame = (Header.decodeKind (code frame)).map fun kind =>
      (⟨kind, UInt32.ofNat (word 4 frame), UInt32.ofNat (word 8 frame)⟩, frame.drop 12) := by
  have hkind := get_word (Nat.le_trans (show 0 + 4 ≤ 12 by decide) h)
  have hid := get_word (Nat.le_trans (show 4 + 4 ≤ 12 by decide) h)
  have hsize := get_word (Nat.le_trans (show 8 + 4 ≤ 12 by decide) h)
  rw [List.drop_zero] at hkind
  simp only [Header.format, Format.iso, Format.pair, Format.refine, hkind, code]
  cases Header.decodeKind (UInt32.ofNat (word 0 frame)) with
  | error err => rfl
  | ok kind =>
      simp only [hid, hsize]
      rfl

theorem decodeKind_error_iff {code : UInt32} {err : WireError} :
    Header.decodeKind code = .error err ↔
      (¬ ∃ kind : FrameKind, Coded.code kind = code) ∧ err = .unknownCommand code := by
  simp only [← Header.decodeKind_eq_ok_iff]
  unfold Header.decodeKind
  cases Coded.ofCode? FrameKind code <;> simp [eq_comm]

theorem word_lt (place : Nat) (frame : Bytes) : word place frame < UInt32.size := by
  have hlength : ((frame.drop place).take 4).length ≤ 4 := List.length_take_le 4 _
  exact Nat.lt_of_lt_of_le (Wire.ofLittleEndian_lt _) (Wire.capacity_le hlength)

/-- A frame is taken apart just if its checks are passed. -/
theorem decode_error_iff {frame : Bytes} {err : WireError} :
    decode frame = .error err ↔ FirstFault (checks frame) err := by
  simp only [checks, FirstFault.cons_iff, FirstFault.not_nil, decode]
  by_cases hlength : 12 ≤ frame.length
  · rw [if_neg (show ¬ frame.length < Header.length from Nat.not_lt.2 hlength), get_header hlength]
    have hsize : (UInt32.ofNat (word 8 frame)).toNat = word 8 frame :=
      UInt32.toNat_ofNat_of_lt' (word_lt 8 frame)
    rcases hkind : Header.decodeKind (code frame) with err' | kind
    · obtain ⟨hnone, rfl⟩ := decodeKind_error_iff.1 hkind
      simp only [Except.map, hlength, hnone, Except.error.injEq, not_true, not_false_iff, true_and,
        false_and, false_or, or_false]
      exact eq_comm
    · have hsome : ∃ kind : FrameKind, Coded.code kind = code frame :=
        ⟨kind, Header.decodeKind_eq_ok_iff.1 hkind⟩
      simp only [Except.map, hsize, hlength, hsome, not_true, true_and, false_and, false_or,
        and_false, or_false]
      by_cases hdeclared : word 8 frame = frame.length
      · simp [hdeclared]
      · simp only [hdeclared, if_false, Except.error.injEq, not_false_iff, true_and]
        exact eq_comm
  · rw [if_pos (show frame.length < Header.length from Nat.not_le.1 hlength)]
    simp only [hlength, Header.length, Except.error.injEq, not_false_iff, true_and, false_and,
      or_false]
    exact eq_comm

theorem decode_ok {frame payload : Bytes} {header : Header}
    (h : decode frame = .ok (header, payload)) :
    Coded.ofCode? FrameKind (code frame) = some header.kind ∧ payload = frame.drop 12 := by
  have hlength : 12 ≤ frame.length := by
    rw [(decode_eq_ok_iff.1 h).1, List.length_append, Header.hasSize_format]
    exact Nat.le_add_right _ _
  rw [decode, if_neg (show ¬ frame.length < Header.length from Nat.not_lt.2 hlength),
    get_header hlength] at h
  rcases hkind : Header.decodeKind (code frame) with err | kind
  · simp [hkind, Except.map] at h
  · simp only [hkind, Except.map] at h
    split at h
    · obtain ⟨rfl, rfl⟩ := Prod.mk.inj (Except.ok.inj h)
      exact ⟨Coded.ofCode?_eq_some_iff.2 (Header.decodeKind_eq_ok_iff.1 hkind), rfl⟩
    · cases h

end Frame

/-! ### Messages in frames -/

namespace Message

variable {μ : Type} {size : FrameKind → Nat} {fields : FrameKind → List (Nat × ByteField)}

/-- The payload is checked behind the header, as its kind requires. -/
def checks (size : FrameKind → Nat) (fields : FrameKind → List (Nat × ByteField))
    (frame : Bytes) : List Check :=
  Frame.checks frame ++
    match Coded.ofCode? FrameKind (Frame.code frame) with
    | none => []
    | some kind => wholeChecks (size kind) (fields kind) (frame.drop 12)

theorem reported_checks (frame : Bytes) : Reported (checks size fields frame) := by
  refine (Frame.reported_checks frame).append ?_
  cases Coded.ofCode? FrameKind (Frame.code frame) with
  | none => exact .nil
  | some kind => exact reported_wholeChecks _ _ _

variable {ofPayload : FrameKind → Bytes → Except WireError μ}
  {decode : Bytes → Except WireError (Header × μ)}

theorem decode_error_iff
    (hdecode : ∀ frame, decode frame =
      match Frame.decode frame with
      | .error err => .error err
      | .ok (header, bytes) => (ofPayload header.kind bytes).map fun m => (header, m))
    (hpayload : ∀ kind bytes err, ofPayload kind bytes = .error err ↔
      FirstFault (wholeChecks (size kind) (fields kind) bytes) err)
    (frame : Bytes) (err : WireError) :
    decode frame = .error err ↔ FirstFault (checks size fields frame) err := by
  rw [hdecode, checks]
  rcases FirstFault.all_or_exists (Frame.checks frame) with hall | ⟨err', hfault⟩
  · rcases hframe : Frame.decode frame with err' | ⟨header, payload⟩
    · exact absurd hall (Frame.decode_error_iff.1 hframe).not_all
    · obtain ⟨hkind, rfl⟩ := Frame.decode_ok hframe
      rw [FirstFault.append_iff hall, hkind, ← hpayload]
      exact Format.map_eq_error_iff
  · -- a frame that is not taken apart has no payload
    have hframe := Frame.decode_error_iff.2 hfault
    rw [FirstFault.append_iff_left hfault, ← Frame.decode_error_iff, hframe]
    simp

/-- A kind whose payloads are empty. -/
theorem bare_error_iff (m : μ) (bytes : Bytes) (err : WireError) :
    (if bytes.length = 0 then .ok m else .error (.invalidLength 0 bytes.length)) =
      (.error err : Except WireError μ) ↔ FirstFault (wholeChecks 0 [] bytes) err := by
  have hnone : ByteField.checks [] bytes = [] := rfl
  rw [wholeChecks, hnone, FirstFault.cons_iff]
  by_cases hlength : bytes.length = 0
  · simp [hlength, FirstFault.not_nil]
  · simp only [hlength, if_false, Except.error.injEq, not_false_iff, true_and, false_and, or_false]
    exact eq_comm

end Message

theorem Deviation.reads_format : format.Reads 24 [] :=
  (Binary64.reads_format.pair (Binary64.reads_format.pair Binary64.reads_format)).iso _ _

namespace Request

/-- The one-byte fields in the payload of each kind, each at its place. -/
def fields : FrameKind → List (Nat × ByteField)
  | .connect => []
  | .startMotion => [(0, .coded MotionType .motionType)]
  | .stopMotion => []
  | .setController => [(0, .coded ControllerMode .controllerMode)]
  | .move => [(0, .coded ControllerMode .controllerMode), (1, .coded MotionMode .motionMode)]
  | .stopMove => []

def checks (frame : Bytes) : List Check := Message.checks payloadSize fields frame

theorem reads_connectFormat : connectFormat.Reads 4 [] :=
  ((Format.reads_uint 2).iso _ _).pair ((Format.reads_uint 2).iso _ _)

theorem reads_moveFormat : moveFormat.Reads 50 (fields .move) :=
  ((Format.reads_coded _ _).pair <| (Format.reads_coded _ _).pair <|
    Deviation.reads_format.pair Deviation.reads_format).iso _ _

theorem ofPayload_error_iff (kind : FrameKind) (bytes : Bytes) (err : WireError) :
    ofPayload kind bytes = .error err ↔
      FirstFault (wholeChecks (payloadSize kind) (fields kind) bytes) err := by
  cases kind with
  | connect => exact Format.map_eq_error_iff.trans reads_connectFormat.getAll_error_iff
  | startMotion => exact Format.map_eq_error_iff.trans (Format.reads_coded _ _).getAll_error_iff
  | stopMotion => exact Message.bare_error_iff _ _ _
  | setController => exact Format.map_eq_error_iff.trans (Format.reads_coded _ _).getAll_error_iff
  | move => exact Format.map_eq_error_iff.trans reads_moveFormat.getAll_error_iff
  | stopMove => exact Message.bare_error_iff _ _ _

theorem decode_error_iff (frame : Bytes) (err : WireError) :
    decode frame = .error err ↔ FirstFault (checks frame) err :=
  Message.decode_error_iff (fun _ => rfl) ofPayload_error_iff frame err

end Request

namespace Reply

/-- A reply has the field of its status in front. -/
def fields : FrameKind → List (Nat × ByteField)
  | .connect => [(0, .coded ConnectStatus .status)]
  | .startMotion => [(0, .coded StartStatus .status)]
  | .stopMotion => [(0, .coded StopStatus .status)]
  | .setController => [(0, .coded ControllerStatus .status)]
  | .move => [(0, .coded MoveStatus .status)]
  | .stopMove => [(0, .coded StopMoveStatus .status)]

def checks (frame : Bytes) : List Check := Message.checks payloadSize fields frame

theorem reads_connectFormat : connectFormat.Reads 3 (fields .connect) :=
  (Format.reads_coded _ _).pair ((Format.reads_uint 2).iso _ _)

theorem ofPayload_error_iff (kind : FrameKind) (bytes : Bytes) (err : WireError) :
    ofPayload kind bytes = .error err ↔
      FirstFault (wholeChecks (payloadSize kind) (fields kind) bytes) err := by
  cases kind with
  | connect => exact Format.map_eq_error_iff.trans reads_connectFormat.getAll_error_iff
  | startMotion | stopMotion | setController | move | stopMove =>
      exact Format.map_eq_error_iff.trans (Format.reads_coded _ _).getAll_error_iff

theorem decode_error_iff (frame : Bytes) (err : WireError) :
    decode frame = .error err ↔ FirstFault (checks frame) err :=
  Message.decode_error_iff (fun _ => rfl) ofPayload_error_iff frame err

end Reply

/-- Each reader reports the first check that its bytes do not pass, and whatever the bytes are it
never reads behind them. -/
theorem first_fault_reported (bytes : Bytes) :
    (∀ err, Frame.decode bytes = .error err ↔ FirstFault (Frame.checks bytes) err) ∧
    (∀ err, Request.decode bytes = .error err ↔ FirstFault (Request.checks bytes) err) ∧
    (∀ err, Reply.decode bytes = .error err ↔ FirstFault (Reply.checks bytes) err) ∧
    (∀ err, State.decode bytes = .error err ↔ FirstFault (State.checks bytes) err) ∧
    (∀ err, Command.decode bytes = .error err ↔ FirstFault (Command.checks bytes) err) ∧
    StaysWithin (Frame.decode bytes) ∧ StaysWithin (Request.decode bytes) ∧
    StaysWithin (Reply.decode bytes) ∧ StaysWithin (State.decode bytes) ∧
    StaysWithin (Command.decode bytes) :=
  ⟨fun _ => Frame.decode_error_iff, Request.decode_error_iff bytes, Reply.decode_error_iff bytes,
    State.decode_error_iff bytes, Command.decode_error_iff bytes,
    (Frame.reported_checks bytes).staysWithin fun _ => Frame.decode_error_iff,
    (Message.reported_checks bytes).staysWithin (Request.decode_error_iff bytes),
    (Message.reported_checks bytes).staysWithin (Reply.decode_error_iff bytes),
    (reported_wholeChecks _ _ bytes).staysWithin (State.decode_error_iff bytes),
    (reported_wholeChecks _ _ bytes).staysWithin (Command.decode_error_iff bytes)⟩

/-- A frame of an unknown kind that also names a wrong length. -/
example :
    Reply.decode [77, 0, 0, 0, 1, 0, 0, 0, 200, 0, 0, 0, 9] = .error (.unknownCommand 77) := by rfl

/-- Without the check of its length, an empty payload would stop the program. -/
example : (Format.coded .status : Format StopStatus).get [] = .error (.underrun 1 0) := by rfl

end ArmControl
