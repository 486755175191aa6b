import ArmControl.Wire.Format

/-!
# Binary64 values

Joint values, poses, torques and tolerances are IEEE-754 binary64 numbers.  The control session
stores them, sends them and asks whether they are finite, so a number is kept as its bit pattern:
two patterns are the same value exactly when all sixty-four bits agree.
-/

namespace ArmControl

/-- An IEEE-754 binary64 number, given by its bits. -/
structure Binary64 where
  bits : UInt64
deriving DecidableEq, Repr, Inhabited

namespace Binary64

/-- The biased exponent. -/
def exponent (x : Binary64) : UInt64 := (x.bits >>> 52) &&& 0x7ff

/-- The bits after the binary point. -/
def fraction (x : Binary64) : UInt64 := x.bits &&& 0xfffffffffffff

/-- Neither infinite nor a NaN. -/
def isFinite (x : Binary64) : Bool := x.exponent != 0x7ff

def isNaN (x : Binary64) : Bool := x.exponent == 0x7ff && x.fraction != 0

def zero : Binary64 := ⟨0⟩
def one : Binary64 := ⟨0x3ff0000000000000⟩

/-- The quiet NaN with no payload. -/
def nan : Binary64 := ⟨0x7ff8000000000000⟩

def infinity : Binary64 := ⟨0x7ff0000000000000⟩

/-- The number with the other sign. -/
def neg (x : Binary64) : Binary64 := ⟨x.bits ^^^ 0x8000000000000000⟩

/-- Eight bytes, the least significant first. -/
def format : Format Binary64 := Format.uint64.iso mk bits

theorem exact_format : format.Exact :=
  Format.exact_uint64.iso (fun _ => rfl) fun _ => rfl

end Binary64
end ArmControl
