import ArmControl.Wire.Bytes
import ArmControl.Wire.Error

/-!
# Formats

A `Format α` writes a value of `α` as bytes and reads one off the front of a byte string.  Formats
are built from the numbers of `Wire.Bytes` by `pair`, `vector` and `iso`, so that one description
of a message gives both its writer and its reader.

The reader of a number does not look how many bytes there are: where they do not suffice, it stops
the program (`WireError.underrun`), and every combinator passes that on.  To look before one reads is
up to the reader of the whole message (`getAll`).

A format is `Exact` when its reader accepts precisely what its writer produces, whatever follows.
Every combinator keeps exactness (`Exact.pair`, `Exact.vector`, `Exact.iso`), and an exact format
writes no value in two ways (`Exact.put_injective`).
-/

namespace ArmControl

/-- How values of `α` stand in a byte string. -/
structure Format (α : Type) where
  /-- The bytes of a value. -/
  put : α → Bytes
  /-- The value at the front of a byte string, with the bytes after it. -/
  get : Bytes → Except WireError (α × Bytes)

namespace Format

variable {α β : Type}

/-- A number of `width` bytes, least significant first.  Without so many bytes the program stops. -/
def uint (width : Nat) : Format Nat where
  put n := Wire.littleEndian width n
  get bs :=
    if width ≤ bs.length then .ok (Wire.ofLittleEndian (bs.take width), bs.drop width)
    else .error (.underrun width bs.length)

/-- One value after the other. -/
def pair (f : Format α) (g : Format β) : Format (α × β) where
  put p := f.put p.1 ++ g.put p.2
  get bs :=
    match f.get bs with
    | .error err => .error err
    | .ok (a, rest) =>
      match g.get rest with
      | .error err => .error err
      | .ok (b, rest) => .ok ((a, b), rest)

/-- The same bytes for another presentation of the values. -/
def iso (f : Format α) (forth : α → β) (back : β → α) : Format β where
  put b := f.put (back b)
  get bs :=
    match f.get bs with
    | .error err => .error err
    | .ok (a, rest) => .ok (forth a, rest)

/-- A value of which the format leaves some codes unused: `forth` refuses those. -/
def refine (f : Format α) (forth : α → Except WireError β) (back : β → α) : Format β where
  put b := f.put (back b)
  get bs :=
    match f.get bs with
    | .error err => .error err
    | .ok (a, rest) =>
      match forth a with
      | .error err => .error err
      | .ok b => .ok (b, rest)

/-- `n` values, one after the other. -/
def vector (f : Format α) : (n : Nat) → Format (Vector α n)
  | 0 =>
    { put := fun _ => []
      get := fun bs => .ok (#v[], bs) }
  | n + 1 =>
    (pair (vector f n) f).iso (fun p => p.1.push p.2) (fun v => (v.pop, v.back))

def uint8 : Format UInt8 := (uint 1).iso UInt8.ofNat UInt8.toNat
def uint16 : Format UInt16 := (uint 2).iso UInt16.ofNat UInt16.toNat
def uint32 : Format UInt32 := (uint 4).iso UInt32.ofNat UInt32.toNat
def uint64 : Format UInt64 := (uint 8).iso UInt64.ofNat UInt64.toNat

/-- The value that takes up the whole of a byte string of the given length. -/
def getAll (f : Format α) (size : Nat) (bs : Bytes) : Except WireError α :=
  if bs.length = size then
    match f.get bs with
    | .error err => .error err
    | .ok (a, _) => .ok a
  else .error (.invalidLength size bs.length)

/-! ### Exactness -/

/-- The reader accepts what the writer produces and nothing else. -/
structure Exact (f : Format α) : Prop where
  get_put : ∀ a rest, f.get (f.put a ++ rest) = .ok (a, rest)
  eq_put : ∀ {bs a rest}, f.get bs = .ok (a, rest) → bs = f.put a ++ rest

/-- Every value is written with the same count of bytes. -/
def HasSize (f : Format α) (size : Nat) : Prop := ∀ a, (f.put a).length = size

theorem Exact.put_injective {f : Format α} (hf : f.Exact) {a b : α} (h : f.put a = f.put b) :
    a = b := by
  have ha := hf.get_put a []
  rw [h, hf.get_put b []] at ha
  simpa using ha.symm

theorem uint_get_put {width n : Nat} (h : n < Wire.capacity width) (rest : Bytes) :
    (uint width).get ((uint width).put n ++ rest) = .ok (n, rest) := by
  simp [uint, Wire.ofLittleEndian_littleEndian h]

theorem uint_eq_put {width n : Nat} {bs rest : Bytes} (h : (uint width).get bs = .ok (n, rest)) :
    bs = (uint width).put n ++ rest ∧ n < Wire.capacity width := by
  simp only [uint] at h
  split at h
  · rename_i hle
    simp only [Except.ok.injEq, Prod.mk.injEq] at h
    obtain ⟨rfl, rfl⟩ := h
    have hlen : (bs.take width).length = width := by simp [hle]
    constructor
    · have := Wire.littleEndian_ofLittleEndian (bs.take width)
      rw [hlen] at this
      simp [uint, this]
    · have := Wire.ofLittleEndian_lt (bs.take width)
      rwa [hlen] at this
  · cases h

theorem Exact.pair {f : Format α} {g : Format β} (hf : f.Exact) (hg : g.Exact) :
    (f.pair g).Exact where
  get_put p rest := by simp [Format.pair, hf.get_put, hg.get_put]
  eq_put {bs p rest} h := by
    simp only [Format.pair] at h
    split at h
    · cases h
    · rename_i a rest' ha
      split at h
      · cases h
      · rename_i b rest'' hb
        simp only [Except.ok.injEq, Prod.mk.injEq] at h
        obtain ⟨rfl, rfl⟩ := h
        simp [Format.pair, hf.eq_put ha, hg.eq_put hb]

theorem Exact.iso {f : Format α} {forth : α → β} {back : β → α} (hf : f.Exact)
    (hforth : ∀ b, forth (back b) = b) (hback : ∀ a, back (forth a) = a) : (f.iso forth back).Exact where
  get_put b rest := by simp [Format.iso, hf.get_put, hforth]
  eq_put {bs b rest} h := by
    simp only [Format.iso] at h
    split at h
    · cases h
    · rename_i a rest' ha
      simp only [Except.ok.injEq, Prod.mk.injEq] at h
      obtain ⟨rfl, rfl⟩ := h
      simp [Format.iso, hback, hf.eq_put ha]

theorem Exact.refine {f : Format α} {forth : α → Except WireError β} {back : β → α} (hf : f.Exact)
    (hforth : ∀ b, forth (back b) = .ok b) (hback : ∀ a b, forth a = .ok b → back b = a) :
    (f.refine forth back).Exact where
  get_put b rest := by simp [Format.refine, hf.get_put, hforth]
  eq_put {bs b rest} h := by
    simp only [Format.refine] at h
    split at h
    · cases h
    · rename_i a rest' ha
      split at h
      · cases h
      · rename_i b' hb
        simp only [Except.ok.injEq, Prod.mk.injEq] at h
        obtain ⟨rfl, rfl⟩ := h
        simp [Format.refine, hback a b' hb, hf.eq_put ha]

theorem Exact.vector {f : Format α} (hf : f.Exact) (n : Nat) : (f.vector n).Exact := by
  induction n with
  | zero =>
    refine ⟨fun v rest => ?_, fun {bs v rest} h => ?_⟩
    · have : v = #v[] := by apply Vector.ext; intro i hi; omega
      simp [Format.vector, this]
    · simp only [Format.vector, Except.ok.injEq, Prod.mk.injEq] at h
      simp [Format.vector, h.2]
  | succ n ih =>
    apply (ih.pair hf).iso
    · intro v; exact Vector.push_pop_back v
    · intro p; simp [Vector.back_eq_getElem]

/-- A number of known width that fits a machine word. -/
theorem exact_word {width : Nat} {ofNat : Nat → α} {toNat : α → Nat}
    (hfit : ∀ a, toNat a < Wire.capacity width) (hforth : ∀ a, ofNat (toNat a) = a)
    (hback : ∀ n, n < Wire.capacity width → toNat (ofNat n) = n) : ((uint width).iso ofNat toNat).Exact where
  get_put a rest := by simp [Format.iso, uint_get_put (hfit a), hforth]
  eq_put {bs a rest} h := by
    simp only [Format.iso] at h
    split at h
    · cases h
    · rename_i n rest' hn
      simp only [Except.ok.injEq, Prod.mk.injEq] at h
      obtain ⟨rfl, rfl⟩ := h
      obtain ⟨hbs, hlt⟩ := uint_eq_put hn
      simp [Format.iso, hback n hlt, hbs]

theorem exact_uint8 : uint8.Exact :=
  exact_word (fun a => a.toNat_lt) (fun a => by simp)
    (fun n hn => UInt8.toNat_ofNat'.trans (Nat.mod_eq_of_lt hn))

theorem exact_uint16 : uint16.Exact :=
  exact_word (fun a => a.toNat_lt) (fun a => by simp)
    (fun n hn => UInt16.toNat_ofNat'.trans (Nat.mod_eq_of_lt hn))

theorem exact_uint32 : uint32.Exact :=
  exact_word (fun a => a.toNat_lt) (fun a => by simp)
    (fun n hn => UInt32.toNat_ofNat'.trans (Nat.mod_eq_of_lt hn))

theorem exact_uint64 : uint64.Exact :=
  exact_word (fun a => a.toNat_lt) (fun a => by simp)
    (fun n hn => UInt64.toNat_ofNat'.trans (Nat.mod_eq_of_lt hn))

end Format
end ArmControl
