/-!
# Bytes and little-endian numbers

Everything that crosses the link is a list of bytes.  A number is written with a fixed count of
base-256 digits, the least significant first: `littleEndian k n` writes the `k` low digits of `n`
and `ofLittleEndian` reads them back.

The two directions are inverse on numbers that fit (`ofLittleEndian_littleEndian`) and on all digit
strings (`littleEndian_ofLittleEndian`).
-/

namespace ArmControl

/-- What crosses the link. -/
abbrev Bytes := List UInt8

namespace Wire

/-- How many numbers can be written with `k` base-256 digits. -/
def capacity : Nat → Nat
  | 0 => 1
  | k + 1 => 256 * capacity k

/-- The `k` low base-256 digits of a number, least significant first. -/
def littleEndian : Nat → Nat → Bytes
  | 0, _ => []
  | k + 1, n => UInt8.ofNat n :: littleEndian k (n / 256)

/-- The number with these base-256 digits, least significant first. -/
def ofLittleEndian : Bytes → Nat
  | [] => 0
  | b :: rest => b.toNat + 256 * ofLittleEndian rest

@[simp] theorem length_littleEndian (k n : Nat) : (littleEndian k n).length = k := by
  induction k generalizing n with
  | zero => rfl
  | succ k ih => simp [littleEndian, ih]

theorem ofLittleEndian_lt (bs : Bytes) : ofLittleEndian bs < capacity bs.length := by
  induction bs with
  | nil => simp [ofLittleEndian, capacity]
  | cons b rest ih =>
    have hb := b.toNat_lt
    simp only [ofLittleEndian, List.length_cons, capacity]
    omega

theorem ofLittleEndian_littleEndian {k n : Nat} (h : n < capacity k) :
    ofLittleEndian (littleEndian k n) = n := by
  induction k generalizing n with
  | zero =>
    rw [capacity] at h
    simp only [littleEndian, ofLittleEndian]
    omega
  | succ k ih =>
    have hk : n / 256 < capacity k := Nat.div_lt_of_lt_mul h
    simp only [littleEndian, ofLittleEndian, ih hk, UInt8.toNat_ofNat']
    omega

theorem littleEndian_ofLittleEndian (bs : Bytes) :
    littleEndian bs.length (ofLittleEndian bs) = bs := by
  induction bs with
  | nil => rfl
  | cons b rest ih =>
    have hb := b.toNat_lt
    have hdiv : (b.toNat + 256 * ofLittleEndian rest) / 256 = ofLittleEndian rest := by omega
    have hmod : UInt8.ofNat (b.toNat + 256 * ofLittleEndian rest) = b := by
      apply UInt8.toNat_inj.1
      simp only [UInt8.toNat_ofNat']
      omega
    simp only [List.length_cons, littleEndian, ofLittleEndian, hdiv, hmod, ih]

end Wire
end ArmControl
