import ArmControl.Frame.Reply
import ArmControl.Frame.Request
import ArmControl.Proofs.Datagram

/-! # Frames

A frame is its header and all that follows, as long as the header says (`Frame.decode_eq_ok_iff`).

Requests and replies are messages in frames, each kind with a payload of its own.  The frames that
are accepted are just those that are written of a message under some id, with each field at its
place (`frames_are_canonical`).  So whoever takes a request frame reads the request and its id
(`Request.decode_encode`). -/

namespace ArmControl

/-! ### The header -/

namespace Header

theorem decodeKind_eq_ok_iff {code : UInt32} {kind : FrameKind} :
    decodeKind code = .ok kind ↔ Coded.code kind = code := by
  rw [← Coded.ofCode?_eq_some_iff]
  unfold decodeKind
  cases Coded.ofCode? FrameKind code <;> simp

theorem exact_format : format.Exact := by
  have hkind : (Format.uint32.refine decodeKind Coded.code).Exact :=
    Format.exact_uint32.refine (fun _ => decodeKind_eq_ok_iff.2 rfl)
      fun _ _ => decodeKind_eq_ok_iff.1
  exact (hkind.pair (Format.exact_uint32.pair Format.exact_uint32)).iso (fun _ => rfl) fun _ => rfl

theorem hasSize_format : format.HasSize length := by
  have hword : Format.uint32.HasSize 4 := (Format.hasSize_uint 4).iso _ _
  exact ((hword.refine _ _).pair (hword.pair hword)).iso _ _

end Header

namespace Frame

theorem length_encode (kind : FrameKind) (id : UInt32) (payload : Bytes) :
    (encode kind id payload).length = Header.length + payload.length := by
  rw [encode, List.length_append, Header.hasSize_format]

/-- What is read of a frame is its header and all that follows. -/
theorem decode_eq_ok_iff {frame payload : Bytes} {header : Header} :
    decode frame = .ok (header, payload) ↔
      frame = Header.format.put header ++ payload ∧ header.size.toNat = frame.length := by
  constructor
  · intro h
    unfold decode at h
    split at h
    · cases h
    · split at h
      · cases h
      · rename_i header' payload' hget
        split at h
        · rename_i hsize
          obtain ⟨rfl, rfl⟩ := Prod.mk.inj (Except.ok.inj h)
          exact ⟨Header.exact_format.eq_put hget, hsize⟩
        · cases h
  · rintro ⟨rfl, hsize⟩
    have hlong : ¬ (Header.format.put header ++ payload).length < Header.length := by
      rw [List.length_append, Header.hasSize_format]
      omega
    simp only [decode, if_neg hlong, Header.exact_format.get_put, hsize, if_true]

/-- A frame is the one that is written for its kind and its id, if it is as long as it says. -/
theorem put_header {header : Header} {payload : Bytes}
    (h : header.size.toNat = Header.length + payload.length) :
    Header.format.put header ++ payload = encode header.kind header.id payload := by
  have hsize : header.size = UInt32.ofNat (Header.length + payload.length) := by
    rw [← h, UInt32.ofNat_toNat]
  rw [encode, Header.ofPayload, ← hsize]

/-- The bytes of a frame, field by field. -/
def layout (kind : FrameKind) (id : UInt32) (payload : Bytes) : Bytes :=
  Wire.littleEndian 4 (Coded.code kind : UInt32).toNat ++ Wire.littleEndian 4 id.toNat ++
    Wire.littleEndian 4 (Header.length + payload.length) ++ payload

/-- The length that the header names has to fit into its field. -/
theorem encode_eq (kind : FrameKind) (id : UInt32) {payload : Bytes}
    (h : Header.length + payload.length < UInt32.size) :
    encode kind id payload = layout kind id payload := by
  have hput : encode kind id payload =
      (Wire.littleEndian 4 (Coded.code kind : UInt32).toNat ++ (Wire.littleEndian 4 id.toNat ++
        Wire.littleEndian 4 (UInt32.ofNat (Header.length + payload.length)).toNat)) ++
          payload := rfl
  rw [hput, UInt32.toNat_ofNat_of_lt' h]
  simp only [layout, List.append_assoc]

end Frame

/-! ### Messages in frames -/

namespace Message

variable {μ α : Type} {f : Format α} {size : Nat} (kind : μ → FrameKind) (payload : μ → Bytes)

/-- All messages of a kind hold one value each, which is all that there is in their payloads. -/
theorem carried_eq_ok_iff (k : FrameKind) (c : α → μ) (hf : f.Exact) (hsize : f.HasSize size)
    (hput : ∀ a, payload (c a) = f.put a) (hkind : ∀ m, kind m = k ↔ ∃ a, c a = m)
    (bytes : Bytes) (m : μ) :
    (f.getAll size bytes).map c = .ok m ↔ kind m = k ∧ bytes = payload m := by
  rw [hf.map_getAll_eq_ok_iff hsize]
  constructor
  · rintro ⟨a, rfl, rfl⟩
    exact ⟨(hkind _).2 ⟨a, rfl⟩, (hput a).symm⟩
  · rintro ⟨hm, rfl⟩
    obtain ⟨a, rfl⟩ := (hkind _).1 hm
    exact ⟨a, hput a, rfl⟩

/-- There is one message of a kind, and its payload is empty. -/
theorem bare_eq_ok_iff (k : FrameKind) (m₀ : μ) (hput : payload m₀ = [])
    (hkind : ∀ m, kind m = k ↔ m₀ = m) (bytes : Bytes) (m : μ) :
    (if bytes.length = 0 then .ok m₀ else .error (.invalidLength 0 bytes.length)) =
      (.ok m : Except WireError μ) ↔ kind m = k ∧ bytes = payload m := by
  rw [hkind]
  constructor
  · intro h
    split at h
    · rename_i hlength
      obtain rfl := Except.ok.inj h
      exact ⟨rfl, (List.eq_nil_of_length_eq_zero hlength).trans hput.symm⟩
    · cases h
  · rintro ⟨rfl, rfl⟩
    rw [hput]
    rfl

/-- The frames that are read as messages are just those that are written of them, and these have
each field at its place. -/
structure Canonical (layout : μ → Bytes) (encode : μ → UInt32 → Bytes)
    (decode : Bytes → Except WireError (Header × μ)) : Prop where
  decode_eq_ok_iff : ∀ frame header m, decode frame = .ok (header, m) ↔
    frame = encode m header.id ∧ header.kind = kind m ∧ header.size.toNat = frame.length
  decode_encode : ∀ m id,
    decode (encode m id) = .ok (⟨kind m, id, UInt32.ofNat (encode m id).length⟩, m)
  encode_injective : ∀ m m' id id', encode m id = encode m' id' → m = m' ∧ id = id'
  encode_eq : ∀ m id, encode m id = Frame.layout (kind m) id (layout m)

variable {kind payload} {layout : μ → Bytes} {ofPayload : FrameKind → Bytes → Except WireError μ}
  {decode : Bytes → Except WireError (Header × μ)}

/-- If each kind of message accepts just the payloads that are written, just the frames that are
written are accepted. -/
theorem decode_eq_ok_iff
    (hdecode : ∀ frame, decode frame =
      match Frame.decode frame with
      | .error err => .error err
      | .ok (header, bytes) => (ofPayload header.kind bytes).map fun m => (header, m))
    (hpayload : ∀ k bytes m, ofPayload k bytes = .ok m ↔ kind m = k ∧ bytes = payload m)
    (frame : Bytes) (header : Header) (m : μ) :
    decode frame = .ok (header, m) ↔ frame = Frame.encode (kind m) header.id (payload m) ∧
      header.kind = kind m ∧ header.size.toNat = frame.length := by
  rw [hdecode]
  constructor
  · intro h
    rcases hframe : Frame.decode frame with err | ⟨header', bytes⟩
    · simp [hframe] at h
    · simp only [hframe] at h
      obtain ⟨m', hm, hpair⟩ := Format.map_eq_ok_iff.1 h
      obtain ⟨rfl, rfl⟩ := Prod.mk.inj hpair
      obtain ⟨hput, hsize⟩ := Frame.decode_eq_ok_iff.1 hframe
      obtain ⟨hkind, rfl⟩ := (hpayload _ _ _).1 hm
      have hlength : header'.size.toNat = Header.length + (payload m').length := by
        rw [hsize, hput, List.length_append, Header.hasSize_format]
      exact ⟨by rw [hkind, ← Frame.put_header hlength, hput], hkind.symm, hsize⟩
  · rintro ⟨hput, hkind, hsize⟩
    have hlength : header.size.toNat = Header.length + (payload m).length := by
      rw [hsize, hput, Frame.length_encode]
    have hframe : Frame.decode frame = .ok (header, payload m) := by
      refine Frame.decode_eq_ok_iff.2 ⟨?_, hsize⟩
      rw [Frame.put_header hlength, hkind, hput]
    have hm : ofPayload header.kind (payload m) = .ok m := (hpayload _ _ _).2 ⟨hkind.symm, rfl⟩
    simp only [hframe, hm, Except.map]

/-- Messages are canonical if their payloads are, and if their frames are not too long. -/
theorem canonical
    (hdecode : ∀ frame, decode frame =
      match Frame.decode frame with
      | .error err => .error err
      | .ok (header, bytes) => (ofPayload header.kind bytes).map fun m => (header, m))
    (hpayload : ∀ k bytes m, ofPayload k bytes = .ok m ↔ kind m = k ∧ bytes = payload m)
    (hshort : ∀ m, Header.length + (payload m).length < UInt32.size)
    (hlayout : ∀ m, payload m = layout m) :
    Canonical kind layout (fun m id => Frame.encode (kind m) id (payload m)) decode := by
  have hiff := decode_eq_ok_iff hdecode hpayload
  have hback (m : μ) (id : UInt32) : decode (Frame.encode (kind m) id (payload m)) =
      .ok (⟨kind m, id, UInt32.ofNat (Frame.encode (kind m) id (payload m)).length⟩, m) := by
    refine (hiff _ _ _).2 ⟨rfl, rfl, UInt32.toNat_ofNat_of_lt' ?_⟩
    rw [Frame.length_encode]
    exact hshort m
  refine ⟨hiff, hback, fun m m' id id' h => ?_, fun m id => ?_⟩
  · have hread := hback m id
    rw [h, hback m' id'] at hread
    obtain ⟨hheader, hm⟩ := Prod.mk.inj (Except.ok.inj hread)
    exact ⟨hm.symm, (congrArg Header.id hheader).symm⟩
  · rw [← hlayout]
    exact Frame.encode_eq _ _ (hshort m)

end Message

/-! ### Requests -/

theorem Deviation.hasSize_format : Deviation.format.HasSize 24 :=
  (Binary64.hasSize_format.pair (Binary64.hasSize_format.pair Binary64.hasSize_format)).iso _ _

theorem Deviation.put_format (d : Deviation) :
    format.put d = Binary64.row [d.translation, d.rotation, d.elbow] := by
  have hput : format.put d = Wire.littleEndian 8 d.translation.bits.toNat ++
    (Wire.littleEndian 8 d.rotation.bits.toNat ++ Wire.littleEndian 8 d.elbow.bits.toNat) := rfl
  simp [hput, Binary64.row]

namespace Request

theorem exact_connectFormat : connectFormat.Exact := Format.exact_uint16.pair Format.exact_uint16

theorem hasSize_connectFormat : connectFormat.HasSize 4 :=
  ((Format.hasSize_uint 2).iso _ _).pair ((Format.hasSize_uint 2).iso _ _)

theorem exact_moveFormat : moveFormat.Exact :=
  ((Format.exact_coded _).pair <| (Format.exact_coded _).pair <|
    Deviation.exact_format.pair Deviation.exact_format).iso (fun _ => rfl) fun _ => rfl

theorem hasSize_moveFormat : moveFormat.HasSize 50 :=
  ((Format.hasSize_coded _).pair <| (Format.hasSize_coded _).pair <|
    Deviation.hasSize_format.pair Deviation.hasSize_format).iso _ _

theorem payload_length (r : Request) : r.payload.length = payloadSize r.kind := by
  cases r with
  | connect version port => exact hasSize_connectFormat _
  | startMotion type => exact Format.hasSize_coded _ _
  | stopMotion => rfl
  | setController mode => exact Format.hasSize_coded _ _
  | move request => exact hasSize_moveFormat _
  | stopMove => rfl

theorem ofPayload_eq_ok_iff (k : FrameKind) (bytes : Bytes) (r : Request) :
    ofPayload k bytes = .ok r ↔ r.kind = k ∧ bytes = r.payload := by
  have hcoded {α : Type} [Coded α UInt8] (field : WireField) (k : FrameKind) (c : α → Request)
      (hput : ∀ a, (c a).payload = (Format.coded field).put a)
      (hkind : ∀ r, r.kind = k ↔ ∃ a, c a = r) :=
    Message.carried_eq_ok_iff kind payload k c (Format.exact_coded field)
      (Format.hasSize_coded field) hput hkind bytes r
  cases k with
  | connect =>
      exact Message.carried_eq_ok_iff kind payload .connect
        (fun p => connect p.1 p.2) exact_connectFormat hasSize_connectFormat
        (fun _ => rfl) (fun r => by cases r <;> simp [kind]) bytes r
  | startMotion =>
      exact hcoded .motionType _ startMotion (fun _ => rfl) fun r => by cases r <;> simp [kind]
  | stopMotion =>
      exact Message.bare_eq_ok_iff kind payload _ stopMotion rfl
        (fun r => by cases r <;> simp [kind]) bytes r
  | setController =>
      exact hcoded .controllerMode _ setController (fun _ => rfl)
        fun r => by cases r <;> simp [kind]
  | move =>
      exact Message.carried_eq_ok_iff kind payload _ move exact_moveFormat hasSize_moveFormat
        (fun _ => rfl) (fun r => by cases r <;> simp [kind]) bytes r
  | stopMove =>
      exact Message.bare_eq_ok_iff kind payload _ stopMove rfl
        (fun r => by cases r <;> simp [kind]) bytes r

/-- The bytes of a payload, field by field. -/
def layout : Request → Bytes
  | connect version port => Wire.littleEndian 2 version.toNat ++ Wire.littleEndian 2 port.toNat
  | startMotion type => [Coded.code type]
  | stopMotion => []
  | setController mode => [Coded.code mode]
  | move m =>
    [Coded.code m.controllerMode, Coded.code m.motionMode] ++
      Binary64.row [m.path.translation, m.path.rotation, m.path.elbow, m.goal.translation,
        m.goal.rotation, m.goal.elbow]
  | stopMove => []

theorem payload_eq (r : Request) : r.payload = r.layout := by
  cases r with
  | connect version port => rfl
  | startMotion type => exact Format.put_coded _ type
  | stopMotion => rfl
  | setController mode => exact Format.put_coded _ mode
  | move m =>
      have hput : (move m).payload = (Format.coded .controllerMode).put m.controllerMode ++
        ((Format.coded .motionMode).put m.motionMode ++
          (Deviation.format.put m.path ++ Deviation.format.put m.goal)) := rfl
      rw [hput, Format.put_coded, Format.put_coded, Deviation.put_format, Deviation.put_format]
      simp only [layout, Binary64.row, List.flatMap_cons, List.flatMap_nil, List.append_nil,
        List.append_assoc, List.cons_append, List.nil_append]
  | stopMove => rfl

theorem length_lt (r : Request) : Header.length + r.payload.length < UInt32.size := by
  rw [payload_length]
  cases r.kind <;> decide

theorem canonical : Message.Canonical kind layout encode decode :=
  Message.canonical (fun _ => rfl) ofPayload_eq_ok_iff length_lt payload_eq

theorem decode_encode (r : Request) (id : UInt32) :
    decode (r.encode id) = .ok (Header.ofPayload r.kind id r.payload.length, r) := by
  rw [canonical.decode_encode, encode, Frame.length_encode]
  rfl

end Request

/-! ### Replies -/

namespace Reply

theorem exact_connectFormat : connectFormat.Exact :=
  (Format.exact_coded _).pair Format.exact_uint16

theorem hasSize_connectFormat : connectFormat.HasSize 3 :=
  (Format.hasSize_coded _).pair ((Format.hasSize_uint 2).iso _ _)

theorem payload_length (r : Reply) : r.payload.length = payloadSize r.kind := by
  cases r with
  | connect status version => exact hasSize_connectFormat _
  | startMotion | stopMotion | setController | move | stopMove => exact Format.hasSize_coded _ _

theorem ofPayload_eq_ok_iff (k : FrameKind) (bytes : Bytes) (r : Reply) :
    ofPayload k bytes = .ok r ↔ r.kind = k ∧ bytes = r.payload := by
  have hstatus {α : Type} [Coded α UInt8] (k : FrameKind) (c : α → Reply)
      (hput : ∀ a, (c a).payload = (Format.coded .status).put a)
      (hkind : ∀ r, r.kind = k ↔ ∃ a, c a = r) :=
    Message.carried_eq_ok_iff kind payload k c (Format.exact_coded .status)
      (Format.hasSize_coded .status) hput hkind bytes r
  cases k with
  | connect =>
      exact Message.carried_eq_ok_iff kind payload .connect
        (fun p => connect p.1 p.2) exact_connectFormat hasSize_connectFormat
        (fun _ => rfl) (fun r => by cases r <;> simp [kind]) bytes r
  | startMotion => exact hstatus _ startMotion (fun _ => rfl) fun r => by cases r <;> simp [kind]
  | stopMotion => exact hstatus _ stopMotion (fun _ => rfl) fun r => by cases r <;> simp [kind]
  | setController =>
      exact hstatus _ setController (fun _ => rfl) fun r => by cases r <;> simp [kind]
  | move => exact hstatus _ move (fun _ => rfl) fun r => by cases r <;> simp [kind]
  | stopMove => exact hstatus _ stopMove (fun _ => rfl) fun r => by cases r <;> simp [kind]

/-- The bytes of a payload, field by field. -/
def layout : Reply → Bytes
  | connect status version => Coded.code status :: Wire.littleEndian 2 version.toNat
  | startMotion status => [Coded.code status]
  | stopMotion status => [Coded.code status]
  | setController status => [Coded.code status]
  | move status => [Coded.code status]
  | stopMove status => [Coded.code status]

theorem payload_eq (r : Reply) : r.payload = r.layout := by
  cases r with
  | connect status version =>
      have hput : (connect status version).payload =
        (Format.coded .status).put status ++ Wire.littleEndian 2 version.toNat := rfl
      rw [hput, Format.put_coded]
      rfl
  | startMotion | stopMotion | setController | move | stopMove => exact Format.put_coded _ _

theorem length_lt (r : Reply) : Header.length + r.payload.length < UInt32.size := by
  rw [payload_length]
  cases r.kind <;> decide

theorem canonical : Message.Canonical kind layout encode decode :=
  Message.canonical (fun _ => rfl) ofPayload_eq_ok_iff length_lt payload_eq

end Reply

/-- A frame is read as a request, or as a reply, just if it is the frame that is written of this
message under the id that is read.  So no two messages or ids share a frame. -/
theorem frames_are_canonical :
    Message.Canonical Request.kind Request.layout Request.encode Request.decode ∧
      Message.Canonical Reply.kind Reply.layout Reply.encode Reply.decode :=
  ⟨Request.canonical, Reply.canonical⟩

end ArmControl
