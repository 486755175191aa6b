import ArmControl.Binary64

/-!
# Rounding to binary64

`Binary64.ofRatio`, `Binary64.ofDecimal` and `Binary64.ofInt` give the number nearest to an exact
value; of two that are equally near, the one whose last bit is zero.  What would round to `2 ^ 1024`
or more is infinite.

All three come down to one division.  First the place of the last bit is chosen (`lastPlace`), as
high as the fifty-three bits reach and never below the smallest subnormal; then the value is counted
in units of that place (`roundDiv`).  The count misses the exact quotient by at most half a unit
(`roundDiv_le`, `le_roundDiv`), and an exact quotient is kept (`roundDiv_mul`).
-/

namespace ArmControl.Binary64

/-- The natural number nearest to `num / den`, and the even one of two. -/
def roundDiv (num den : Nat) : Nat :=
  let quotient := num / den
  let rest := num % den
  if 2 * rest < den then quotient
  else if den < 2 * rest then quotient + 1
  else quotient + quotient % 2

theorem roundDiv_le (num den : Nat) : 2 * (den * roundDiv num den) ≤ 2 * num + den := by
  have h := Nat.div_add_mod num den
  have : den * (num / den + 1) = den * (num / den) + den := Nat.mul_succ ..
  unfold roundDiv
  simp only
  split
  · omega
  · split
    · omega
    · obtain h₂ | h₂ := Nat.mod_two_eq_zero_or_one (num / den)
      · rw [h₂, Nat.add_zero]
        omega
      · rw [h₂]
        omega

theorem le_roundDiv (num : Nat) {den : Nat} (hden : 0 < den) :
    2 * num ≤ 2 * (den * roundDiv num den) + den := by
  have h := Nat.div_add_mod num den
  have hlt := Nat.mod_lt num hden
  have : den * (num / den + 1) = den * (num / den) + den := Nat.mul_succ ..
  unfold roundDiv
  simp only
  split
  · omega
  · split
    · omega
    · obtain h₂ | h₂ := Nat.mod_two_eq_zero_or_one (num / den)
      · rw [h₂, Nat.add_zero]
        omega
      · rw [h₂]
        omega

theorem roundDiv_mul (n : Nat) {den : Nat} (hden : 0 < den) : roundDiv (n * den) den = n := by
  simp [roundDiv, Nat.mul_div_cancel n hden, hden]

/-- The exponent of two of the last bit that a number of this size keeps. -/
def lastPlace (num den : Nat) : Int :=
  let top : Int := num.log2 - den.log2
  let reached := den <<< top.toNat ≤ num <<< (-top).toNat
  max (-1074) ((if reached then top else top - 1) - 52)

/-- The bits of the number nearest to `num / den`, without a sign. -/
def magnitude (num den : Nat) : Nat :=
  let place := lastPlace num den
  let count := roundDiv (num <<< (-place).toNat) (den <<< place.toNat)
  min ((place + 1074).toNat <<< 52 + count) infinity.bits.toNat

/-- The number with the sign wanted. -/
def signed (negative : Bool) (x : Binary64) : Binary64 := if negative then x.neg else x

/-- The number nearest to `num / den`. -/
def ofRatio (negative : Bool) (num den : Nat) : Binary64 :=
  signed negative (if num = 0 then zero else ⟨UInt64.ofNat (magnitude num den)⟩)

/-- The number nearest to `digits * 10 ^ exponent`.  Exponents far out of range are settled first, so
that no huge power is ever computed. -/
def ofDecimal (negative : Bool) (digits : Nat) (exponent : Int) : Binary64 :=
  if digits = 0 then signed negative zero
  else if 310 < exponent then signed negative infinity
  else if exponent + digits.log2 < -330 then signed negative zero
  else ofRatio negative (digits * Nat.pow 10 exponent.toNat) (Nat.pow 10 (-exponent).toNat)

/-- The number nearest to an integer. -/
def ofInt (n : Int) : Binary64 := ofRatio (n < 0) n.natAbs 1

end ArmControl.Binary64
