import ArmControl.Settings.Basic

/-!
# Deadlines and priority

While it waits for a confirmation the client looks at its deadline between one state and the next.
A `Clock` says what it finds, look by look, and whether the client gets the priority that lets it keep
time; a statement for every clock is a statement for every way in which time may pass.
-/

namespace ArmControl

structure Clock where
  /-- Whether the deadline has passed at the n-th look. -/
  late : Nat → Bool
  /-- The looks so far. -/
  looks : Nat := 0
  /-- What comes of asking for real-time priority. -/
  priority : Priority := .unsupported

namespace Clock

/-- Looks whether the deadline has passed. -/
def look (c : Clock) : Bool × Clock := (c.late c.looks, { c with looks := c.looks + 1 })

/-- On a link that never keeps the client waiting, only a deadline of no time at all passes. -/
def ofSettings (settings : Settings) : Clock := { late := fun _ => settings.commandTimeout = 0 }

instance : Inhabited Clock := ⟨{ late := fun _ => false }⟩

end Clock
end ArmControl
