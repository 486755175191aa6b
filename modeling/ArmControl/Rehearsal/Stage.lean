import ArmControl.Link.Happening

/-!
# Rehearsals

A rehearsal plays a list of steps against a scripted far end and reports on each of them.  This
module has what all rehearsals share: the stage on which they begin, and what was sent over the link
between two moments.
-/

namespace ArmControl.Rehearsal

/-- The far end agrees to the first connection, as version 1. -/
def welcome : Script := [(.request .connect, [.reply (.connect .success 1) none 0])]

/-- How the link stands before the first step. -/
structure Stage where
  script : Script := welcome
  /-- What the far end says before it is asked. -/
  before : List Cue := []
  /-- The far end has closed the reliable channel. -/
  farClosed : Bool := false
  shutdown : Bool := false

/-- The link at the beginning. -/
def Stage.link (s : Stage) : Link :=
  Link.witness { farEnd := { script := s.script }, farClosed := s.farClosed, shutdown := s.shutdown }
    [.say s.before]

/-- What the client sent in some stretch of time, and how many events waited for it at the end. -/
structure Sent where
  requests : List Bytes
  datagrams : List Bytes
  pending : Nat
deriving DecidableEq, Repr

/-- What was sent after the journal had the length `mark`. -/
def Sent.since (mark : Nat) (l : Link) : Sent :=
  let recent := { l with journal := l.journal.drop mark }
  ⟨recent.requests, recent.datagrams, l.pending.length⟩

/-- Plays steps one after the other; gives each answer with the states before and after the step. -/
def play {τ S α : Type} (step : τ → S → α × S) : List τ → S → List (α × S × S)
  | [], _ => []
  | t :: rest, s =>
    let (answer, s') := step t s
    (answer, s, s') :: play step rest s'

end ArmControl.Rehearsal
