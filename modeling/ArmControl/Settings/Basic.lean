import ArmControl.Deviation
import ArmControl.Error

/-!
# Settings of a session

`Settings` holds what can be chosen about a session.  They are changed one by one with a `Setter`,
of which the last one to touch a field wins; timeouts are given as a `Span` and stored in whole
milliseconds, rounded down except that a positive time is never stored as zero.
-/

namespace ArmControl

/-- Whether a control operation insists on real-time priority. -/
inductive Realtime
  | enforce
  | ignore
deriving DecidableEq, Repr, Inhabited

/-- What comes of an attempt to raise the priority of the control thread.  This is up to the way in
which the library was built, and to the system. -/
inductive Priority
  /-- The library was built without the means. -/
  | unsupported
  | raised
  /-- The system refused. -/
  | denied (cause : String)
deriving DecidableEq, Repr, Inhabited

/-- Raises the priority of the control thread if that is insisted on. -/
def Realtime.apply (priority : Priority) : Realtime → Except SessionError Unit
  | ignore => .ok ()
  | enforce =>
    match priority with
    | .unsupported => .error (.realtime .unsupported)
    | .raised => .ok ()
    | .denied cause => .error (.realtime (.denied cause))

structure Settings where
  /-- The port on which the controller takes connections. -/
  port : UInt16 := 1337
  /-- For connecting and for the handshake, in milliseconds. -/
  connectTimeout : UInt64 := 5000
  /-- For the next state, in milliseconds. -/
  receiveTimeout : UInt64 := 1000
  /-- For a reply and for the confirmation of a mode, in milliseconds. -/
  commandTimeout : UInt64 := 5000
  realtime : Realtime := .ignore
  path : Deviation := .default
  goal : Deviation := .default
deriving DecidableEq, Repr, Inhabited

/-- A span of time. -/
structure Span where
  seconds : UInt64
  nanoseconds : Nat
  nanoseconds_lt : nanoseconds < 1000000000 := by decide
deriving DecidableEq, Repr

namespace Span

instance : Inhabited Span := ⟨⟨0, 0, by decide⟩⟩

/-- The time from its parts; whole seconds in the nanoseconds are carried over. -/
def ofParts (seconds nanoseconds : Nat) : Span :=
  ⟨UInt64.ofNat (seconds + nanoseconds / 1000000000), nanoseconds % 1000000000,
    Nat.mod_lt _ (by decide)⟩

/-- The whole milliseconds of the span, without a bound. -/
def wholeMilliseconds (d : Span) : Nat := d.seconds.toNat * 1000 + d.nanoseconds / 1000000

/-- The milliseconds as they are stored: rounded down, but up to one for less than a millisecond,
and no more than a word can hold. -/
def milliseconds (d : Span) : UInt64 :=
  let ms := d.wholeMilliseconds
  if ms = 0 ∧ ¬ (d.seconds = 0 ∧ d.nanoseconds = 0) then 1
  else if ms < UInt64.size then UInt64.ofNat ms
  else UInt64.ofNat (UInt64.size - 1)

end Span

/-- A change of the settings. -/
inductive Setter
  | port (port : UInt16)
  | connectTimeout (time : Span)
  | receiveTimeout (time : Span)
  | commandTimeout (time : Span)
  | realtime (realtime : Realtime)
  /-- All settings at once. -/
  | all (settings : Settings)
deriving DecidableEq, Repr, Inhabited

namespace Settings

/-- The settings after a change. -/
def set (s : Settings) : Setter → Settings
  | .port port => { s with port }
  | .connectTimeout time => { s with connectTimeout := time.milliseconds }
  | .receiveTimeout time => { s with receiveTimeout := time.milliseconds }
  | .commandTimeout time => { s with commandTimeout := time.milliseconds }
  | .realtime realtime => { s with realtime }
  | .all settings => settings

/-- The settings after some changes, the first one first. -/
def setAll (s : Settings) (setters : List Setter) : Settings := setters.foldl set s

end Settings
end ArmControl
