import ArmControl.Settings.Basic

/-! # What setters leave behind

The settings that come of some setters hold in each field what the last setter that touches it has
written, and the default if none does (`last_setter_wins`).  The setter of all settings touches every
field, and any other setter exactly one.

A setter of a time writes whole milliseconds (`Span.Rounding`).  `toNat_milliseconds` gives them in
closed form: the time in milliseconds is rounded down and capped at what a word can hold, but a time
that is not zero counts as one at least.  Each exception keeps the order of the times, and so do both
together. -/

namespace ArmControl

/-! ### Fields -/

namespace Settings

inductive Field
  | port
  | connectTimeout
  | receiveTimeout
  | commandTimeout
  | realtime
  | path
  | goal
deriving DecidableEq, Repr

namespace Field

/-- What a field can hold. -/
abbrev Value : Field → Type
  | port => UInt16
  | connectTimeout | receiveTimeout | commandTimeout => UInt64
  | realtime => Realtime
  | path | goal => Deviation

def get : (f : Field) → Settings → f.Value
  | port, s => s.port
  | connectTimeout, s => s.connectTimeout
  | receiveTimeout, s => s.receiveTimeout
  | commandTimeout, s => s.commandTimeout
  | realtime, s => s.realtime
  | path, s => s.path
  | goal, s => s.goal

end Field
end Settings

open Settings

/-! ### Setters -/

namespace Setter

/-- What the setter writes into a field, if it touches it. -/
def writes : Setter → (f : Field) → Option f.Value
  | .port value, .port => some value
  | .connectTimeout time, .connectTimeout => some time.milliseconds
  | .receiveTimeout time, .receiveTimeout => some time.milliseconds
  | .commandTimeout time, .commandTimeout => some time.milliseconds
  | .realtime value, .realtime => some value
  | .all settings, f => some (f.get settings)
  | _, _ => none

/-- The field that the setter is for; the setter of all settings is for none in particular. -/
def field? : Setter → Option Field
  | .port _ => some .port
  | .connectTimeout _ => some .connectTimeout
  | .receiveTimeout _ => some .receiveTimeout
  | .commandTimeout _ => some .commandTimeout
  | .realtime _ => some .realtime
  | .all _ => none

theorem writes_isSome_iff (w : Setter) (f : Field) :
    (w.writes f).isSome ↔ w.field? = none ∨ w.field? = some f := by
  cases w <;> cases f <;> simp [writes, field?]

end Setter

namespace Settings

theorem get_set (s : Settings) (w : Setter) (f : Field) :
    f.get (s.set w) = (w.writes f).getD (f.get s) := by
  cases w <;> cases f <;> rfl

/-- What the last of some setters that touches a field writes into it. -/
def lastWritten (setters : List Setter) (f : Field) : Option f.Value :=
  (setters.filterMap fun w => w.writes f).getLast?

theorem lastWritten_cons (w : Setter) (later : List Setter) (f : Field) :
    lastWritten (w :: later) f = (lastWritten later f).or (w.writes f) := by
  unfold lastWritten
  rw [List.filterMap_cons]
  cases w.writes f with
  | none => exact (Option.or_none ..).symm
  | some value =>
      rw [List.getLast?_cons]
      cases (later.filterMap fun w => w.writes f).getLast? <;> rfl

theorem get_setAll (s : Settings) (setters : List Setter) (f : Field) :
    f.get (s.setAll setters) = (lastWritten setters f).getD (f.get s) := by
  induction setters generalizing s with
  | nil => rfl
  | cons w later ih =>
      calc f.get ((s.set w).setAll later)
          = (lastWritten later f).getD ((w.writes f).getD (f.get s)) := by rw [ih, get_set]
        _ = (lastWritten (w :: later) f).getD (f.get s) := by
          rw [lastWritten_cons]
          cases lastWritten later f <;> rfl

end Settings

/-! ### Times -/

namespace Span

/-- The nanoseconds of a time. -/
def length (d : Span) : Nat := d.seconds.toNat * 1000000000 + d.nanoseconds

theorem length_eq_zero_iff (d : Span) : d.length = 0 ↔ d.seconds = 0 ∧ d.nanoseconds = 0 := by
  rw [← UInt64.toNat_inj, UInt64.toNat_zero, length]
  omega

theorem wholeMilliseconds_eq (d : Span) : d.wholeMilliseconds = d.length / 1000000 := by
  rw [wholeMilliseconds, length]
  omega

theorem toNat_milliseconds (d : Span) : d.milliseconds.toNat =
    max (min 1 d.length) (min (d.length / 1000000) 18446744073709551615) := by
  have hsize : UInt64.size = 18446744073709551616 := rfl
  unfold milliseconds
  simp only [wholeMilliseconds_eq, ← length_eq_zero_iff]
  split
  · rw [UInt64.toNat_one]
    omega
  · split
    · rename_i hfits
      rw [UInt64.toNat_ofNat_of_lt' hfits]
      omega
    · rw [UInt64.toNat_ofNat_of_lt' (by decide), hsize]
      omega

/-- How times are rounded to milliseconds: down, but not to zero unless they are zero, and to no more
than a word can hold.  A time that is longer does not become a smaller number. -/
structure Rounding (ms : Span → UInt64) : Prop where
  zero_iff : ∀ d, ms d = 0 ↔ d.seconds = 0 ∧ d.nanoseconds = 0
  mono : ∀ c d, c.length ≤ d.length → ms c ≤ ms d
  down : ∀ d, 1000000 ≤ d.length → d.length / 1000000 < UInt64.size →
    (ms d).toNat = d.length / 1000000
  up : ∀ d, 0 < d.length → d.length < 1000000 → ms d = 1
  capped : ∀ d, UInt64.size ≤ d.length / 1000000 → (ms d).toNat = UInt64.size - 1

theorem rounding_milliseconds : Rounding milliseconds where
  zero_iff d := by
    rw [← UInt64.toNat_inj, toNat_milliseconds, UInt64.toNat_zero, ← length_eq_zero_iff]
    omega
  mono c d h := by
    have hms : c.length / 1000000 ≤ d.length / 1000000 := Nat.div_le_div_right h
    rw [UInt64.le_iff_toNat_le, toNat_milliseconds, toNat_milliseconds]
    omega
  down d hlong hfits := by
    have hsize : UInt64.size = 18446744073709551616 := rfl
    rw [toNat_milliseconds]
    omega
  up d hpositive hshort := by
    have hms : d.length / 1000000 = 0 := Nat.div_eq_of_lt hshort
    rw [← UInt64.toNat_inj, toNat_milliseconds, UInt64.toNat_one]
    omega
  capped d hlong := by
    have hsize : UInt64.size = 18446744073709551616 := rfl
    rw [toNat_milliseconds]
    omega

end Span

/-- Whatever setters are applied, and to whatever values, each field holds what the last one that
touches it has written, or else its default; only the setter of all settings touches more than the
field that it is for.  The times are written as rounded milliseconds. -/
theorem last_setter_wins (setters : List Setter) :
    (∀ f : Field, f.get (Settings.setAll {} setters) =
      (lastWritten setters f).getD (f.get {})) ∧
    (∀ (w : Setter) (f : Field),
      (w.writes f).isSome ↔ w.field? = none ∨ w.field? = some f) ∧
    Span.Rounding Span.milliseconds :=
  ⟨get_setAll {} setters, Setter.writes_isSome_iff, Span.rounding_milliseconds⟩

/-- Less than a millisecond, and more than fits. -/
example : (Span.ofParts 0 999999).milliseconds = 1 ∧
    (Span.ofParts 18446744073709551615 999999999).milliseconds = 18446744073709551615 := by decide

end ArmControl
