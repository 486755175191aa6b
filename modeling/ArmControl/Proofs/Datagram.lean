import ArmControl.Command

/-! # Datagrams

A format whose values all have one size reads back, from a datagram of just this size, what it has
written there, and accepts nothing else (`Format.Exact.getAll_eq_ok_iff`).  So whoever takes a
command datagram reads the command that was sent (`Command.decode_encode`).

The datagrams that are accepted are just those that are written, and each has its fields at fixed
places (`datagrams_are_canonical`). -/

namespace ArmControl

namespace Format

variable {α β : Type} {f : Format α} {g : Format β} {m n : Nat}

theorem hasSize_uint (width : Nat) : (uint width).HasSize width :=
  fun n => Wire.length_littleEndian width n

theorem HasSize.pair (hf : f.HasSize m) (hg : g.HasSize n) : (f.pair g).HasSize (m + n) := by
  intro p
  have hput : (f.pair g).put p = f.put p.1 ++ g.put p.2 := rfl
  rw [hput, List.length_append, hf, hg]

theorem HasSize.iso (hf : f.HasSize m) (forth : α → β) (back : β → α) :
    (f.iso forth back).HasSize m :=
  fun b => hf (back b)

theorem HasSize.refine (hf : f.HasSize m) (forth : α → Except WireError β) (back : β → α) :
    (f.refine forth back).HasSize m :=
  fun b => hf (back b)

theorem HasSize.vector (hf : f.HasSize m) (n : Nat) : (f.vector n).HasSize (n * m) := by
  induction n with
  | zero =>
      intro v
      rw [Nat.zero_mul]
      rfl
  | succ n ih =>
      rw [Nat.succ_mul]
      exact (ih.pair hf).iso _ _

/-- The value that was written is read back from the whole of the bytes. -/
theorem Exact.getAll_put (hf : f.Exact) (hsize : f.HasSize m) (a : α) :
    f.getAll m (f.put a) = .ok a := by
  have hget := hf.get_put a []
  rw [List.append_nil] at hget
  simp only [getAll, hsize a, if_true, hget]

/-- Nothing is read from the whole of the bytes but the value that is written there. -/
theorem Exact.getAll_eq_ok_iff (hf : f.Exact) (hsize : f.HasSize m) {bs : Bytes} {a : α} :
    f.getAll m bs = .ok a ↔ bs = f.put a := by
  refine ⟨fun h => ?_, fun h => h ▸ hf.getAll_put hsize a⟩
  unfold getAll at h
  split at h
  · rename_i hlength
    split at h
    · cases h
    · rename_i b rest hget
      obtain rfl := Except.ok.inj h
      have hput := hf.eq_put hget
      -- the value takes up all the bytes that there are, so nothing is left behind it
      have hrest : rest = [] := by
        have hsum := congrArg List.length hput
        rw [List.length_append, hsize, hlength] at hsum
        exact List.eq_nil_of_length_eq_zero (by omega)
      rw [hput, hrest, List.append_nil]
  · cases h

theorem map_eq_ok_iff {r : Except WireError α} {c : α → β} {b : β} :
    r.map c = .ok b ↔ ∃ a, r = .ok a ∧ c a = b := by
  cases r <;> simp [Except.map]

/-- The same for a value that stands for another one. -/
theorem Exact.map_getAll_eq_ok_iff (hf : f.Exact) (hsize : f.HasSize m) {c : α → β} {bs : Bytes}
    {b : β} : (f.getAll m bs).map c = .ok b ↔ ∃ a, bs = f.put a ∧ c a = b := by
  rw [map_eq_ok_iff]
  simp only [hf.getAll_eq_ok_iff hsize]

theorem put_vector (f : Format α) {n : Nat} (v : Vector α n) :
    (f.vector n).put v = v.toList.flatMap f.put := by
  induction n with
  | zero =>
      obtain rfl : v = #v[] := by ext i hi; omega
      rfl
  | succ n ih =>
      have hput : (f.vector (n + 1)).put v = (f.vector n).put v.pop ++ f.put v.back := rfl
      have hlist : v.toList = v.pop.toList ++ [v.back] := by
        rw [← Vector.toList_push, Vector.push_pop_back]
      rw [hput, ih, hlist, List.flatMap_append, List.flatMap_singleton]

theorem hasSize_coded {α : Type} [Coded α UInt8] (field : WireField) :
    (coded field : Format α).HasSize 1 := ((hasSize_uint 1).iso _ _).refine _ _

theorem put_coded {α : Type} [Coded α UInt8] (field : WireField) (a : α) :
    (coded field).put a = [Coded.code a] := by
  change Wire.littleEndian 1 (Coded.code a : UInt8).toNat = _
  simp [Wire.littleEndian]

end Format

/-! ### Numbers -/

namespace Binary64

theorem hasSize_format : format.HasSize 8 := ((Format.hasSize_uint 8).iso _ _).iso _ _

/-- Numbers one after the other, the least significant byte of each first. -/
def row (xs : List Binary64) : Bytes := xs.flatMap fun x => Wire.littleEndian 8 x.bits.toNat

theorem put_vector {n : Nat} (v : Vector Binary64 n) : (format.vector n).put v = row v.toList :=
  Format.put_vector format v

end Binary64

/-! ### States -/

namespace State

theorem exact_format : format.Exact := by
  have hvector (n : Nat) := Binary64.exact_format.vector n
  exact (Format.exact_uint64.pair <| (hvector _).pair <| (hvector _).pair <| (hvector _).pair <|
    (hvector _).pair <| (Format.exact_coded _).pair <| (Format.exact_coded _).pair
      (Format.exact_coded _)).iso (fun _ => rfl) fun _ => rfl

theorem hasSize_format : format.HasSize size := by
  have hvector (n : Nat) := Binary64.hasSize_format.vector n
  exact ((((Format.hasSize_uint 8).iso _ _).pair <| (hvector _).pair <| (hvector _).pair <|
    (hvector _).pair <| (hvector _).pair <| (Format.hasSize_coded _).pair <|
      (Format.hasSize_coded _).pair (Format.hasSize_coded _)).iso _ _)

/-- The bytes of a state, field by field. -/
def layout (s : State) : Bytes :=
  Wire.littleEndian 8 s.messageId.toNat ++
    Binary64.row (s.jointPositions.toList ++ s.jointVelocities.toList ++ s.jointTorques.toList ++
      s.pose.toList) ++
    [Coded.code s.motionMode, Coded.code s.controllerMode, Coded.code s.robotMode]

theorem encode_eq (s : State) : s.encode = s.layout := by
  have hput : s.encode = Format.uint64.put s.messageId ++
      ((Binary64.format.vector _).put s.jointPositions ++
        ((Binary64.format.vector _).put s.jointVelocities ++
          ((Binary64.format.vector _).put s.jointTorques ++
            ((Binary64.format.vector _).put s.pose ++
              ((Format.coded .motionMode).put s.motionMode ++
                ((Format.coded .controllerMode).put s.controllerMode ++
                  (Format.coded .robotMode).put s.robotMode)))))) := rfl
  simp only [hput, Binary64.put_vector, Format.put_coded, layout, Binary64.row,
    List.flatMap_append, List.append_assoc]
  rfl

end State

/-! ### Commands -/

namespace Command

theorem exact_flag : flag.Exact := by
  refine Format.exact_uint8.refine (fun b => by cases b <;> rfl) fun code b h => ?_
  unfold decodeFlag at h
  split at h
  · rename_i hcode
    obtain rfl := Except.ok.inj h
    exact hcode.symm
  · split at h
    · rename_i hcode
      obtain rfl := Except.ok.inj h
      exact hcode.symm
    · cases h

theorem exact_format : format.Exact := by
  have hvector (n : Nat) := Binary64.exact_format.vector n
  exact (Format.exact_uint64.pair <| (hvector _).pair <| (hvector _).pair <| (hvector _).pair <|
    (hvector _).pair <| exact_flag.pair (hvector _)).iso (fun _ => rfl) fun _ => rfl

theorem hasSize_format : format.HasSize size := by
  have hvector (n : Nat) := Binary64.hasSize_format.vector n
  have hflag : flag.HasSize 1 := ((Format.hasSize_uint 1).iso _ _).refine _ _
  exact ((((Format.hasSize_uint 8).iso _ _).pair <| (hvector _).pair <| (hvector _).pair <|
    (hvector _).pair <| (hvector _).pair <| hflag.pair (hvector _)).iso _ _)

theorem decode_encode (c : Command) : decode c.encode = .ok c :=
  exact_format.getAll_put hasSize_format c

/-- The bytes of a command, field by field. -/
def layout (c : Command) : Bytes :=
  Wire.littleEndian 8 c.messageId.toNat ++
    Binary64.row (c.motion.jointPositions.toList ++ c.motion.jointVelocities.toList ++
      c.motion.pose.toList ++ c.motion.twist.toList) ++
    [if c.motion.finished then 1 else 0] ++ Binary64.row c.torques.toList

theorem put_flag (b : Bool) : flag.put b = [if b then 1 else 0] := by cases b <;> rfl

theorem encode_eq (c : Command) : c.encode = c.layout := by
  have hput : c.encode = Format.uint64.put c.messageId ++
      ((Binary64.format.vector _).put c.motion.jointPositions ++
        ((Binary64.format.vector _).put c.motion.jointVelocities ++
          ((Binary64.format.vector _).put c.motion.pose ++
            ((Binary64.format.vector _).put c.motion.twist ++
              (flag.put c.motion.finished ++ (Binary64.format.vector _).put c.torques))))) := rfl
  simp only [hput, Binary64.put_vector, put_flag, layout, Binary64.row, List.flatMap_append,
    List.append_assoc]
  rfl

end Command

/-- A datagram is read as a state, or as a command, just if it is what is written of this value:
307 or 353 bytes with each field at its place. -/
theorem datagrams_are_canonical :
    (∀ b s, State.decode b = .ok s ↔ b = s.encode) ∧
    (∀ s : State, s.encode = s.layout ∧ s.encode.length = 307) ∧
    (∀ b c, Command.decode b = .ok c ↔ b = c.encode) ∧
    (∀ c : Command, c.encode = c.layout ∧ c.encode.length = 353) :=
  ⟨fun _ _ => State.exact_format.getAll_eq_ok_iff State.hasSize_format,
    fun s => ⟨s.encode_eq, State.hasSize_format s⟩,
    fun _ _ => Command.exact_format.getAll_eq_ok_iff Command.hasSize_format,
    fun c => ⟨c.encode_eq, Command.hasSize_format c⟩⟩

end ArmControl
