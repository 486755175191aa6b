import ArmControl.Command
import ArmControl.Frame.Reply
import ArmControl.Frame.Request

/-!
# A scripted far end

The controller at the far end of a rehearsed link follows a `Script`: a list of entries, each with
the trigger that sets it off and the cues it then plays.  A request or a command of the client takes
the first entry for its trigger off the script; when there is none, the far end stays silent.

A cue becomes bytes when it is played, for replies take the id of the request last seen and states
go on from the id of the state last sent.  Some cues say nothing: they hang up, or end the client's
waits from outside.  A script is finite, so what the far end can still say is bounded by its
`supply`: triggers move cues from the script to the client and never add any (`onRequest_supply`,
`onCommand_supply`).
-/

namespace ArmControl

/-- What reaches the client. -/
inductive Incoming
  | reply (frame : Bytes)
  | state (datagram : Bytes)
  /-- The far end has closed the reliable channel. -/
  | closed
deriving DecidableEq, Repr, Inhabited

/-- Something for the far end to say or to do. -/
inductive Cue
  | closed
  | rawReply (frame : Bytes)
  | rawState (datagram : Bytes)
  /-- A reply under the given id, or else under that of the last request of its kind, plus `add`. -/
  | reply (reply : Reply) (id : Option UInt32) (add : UInt32)
  /-- A state with the id that it has. -/
  | state (state : State)
  /-- A state whose id is `add` more than that of the state before it. -/
  | nextState (state : State) (add : UInt64)
  /-- The far end closes the reliable channel behind all that it has said. -/
  | hangUp
  /-- Somebody asks for the client's waits to end. -/
  | shutdown
deriving Repr, Inhabited

/-- The cue says something, and does not just set a flag. -/
def Cue.speaks : Cue → Bool
  | hangUp | shutdown => false
  | _ => true

/-- What comes of some cues that are played at once. -/
structure Saying where
  /-- What reaches the client. -/
  events : List Incoming := []
  /-- The far end closes the reliable channel behind it. -/
  hangsUp : Bool := false
  /-- Somebody asks for the client's waits to end. -/
  interrupts : Bool := false
deriving DecidableEq, Repr, Inhabited

/-- One saying and then another. -/
instance : Append Saying where
  append a b := ⟨a.events ++ b.events, a.hangsUp || b.hangsUp, a.interrupts || b.interrupts⟩

namespace Saying

@[simp] theorem events_append (a b : Saying) : (a ++ b).events = a.events ++ b.events := rfl

@[simp] theorem hangsUp_append (a b : Saying) : (a ++ b).hangsUp = (a.hangsUp || b.hangsUp) := rfl

@[simp] theorem interrupts_append (a b : Saying) :
    (a ++ b).interrupts = (a.interrupts || b.interrupts) := rfl

@[simp] theorem append_nothing (a : Saying) : a ++ {} = a := by
  rcases a with ⟨events, hangsUp, interrupts⟩
  change Saying.mk _ _ _ = _
  simp

theorem append_assoc (a b c : Saying) : a ++ b ++ c = a ++ (b ++ c) := by
  change Saying.mk _ _ _ = Saying.mk _ _ _
  simp [Bool.or_assoc]

end Saying

/-- What sets an entry of the script off. -/
inductive Trigger
  | request (kind : FrameKind)
  /-- A command in mid-motion. -/
  | running
  /-- A command that ends its motion. -/
  | finished
deriving DecidableEq, Repr, Inhabited

/-- What the far end will say, and when. -/
abbrev Script := List (Trigger × List Cue)

namespace Script

/-- The number of things left to say. -/
def supply : Script → Nat
  | [] => 0
  | (_, cues) :: rest => cues.countP Cue.speaks + supply rest

/-- Takes off the first entry for a trigger. -/
def take (t : Trigger) : Script → List Cue × Script
  | [] => ([], [])
  | (t', cues) :: rest =>
    if t' = t then (cues, rest)
    else ((take t rest).1, (t', cues) :: (take t rest).2)

/-- Exchanges the entries for some triggers. -/
def replace (script : Script) (triggers : List Trigger) (entries : Script) : Script :=
  script.filter (fun entry => entry.1 ∉ triggers) ++ entries

theorem take_supply (t : Trigger) (script : Script) :
    (script.take t).1.countP Cue.speaks + (script.take t).2.supply = script.supply := by
  induction script with
  | nil => rfl
  | cons entry rest ih =>
    obtain ⟨t', cues⟩ := entry
    simp only [take]
    split
    · simp [supply]
    · simp only [supply]
      omega

theorem supply_append (a b : Script) : supply (a ++ b) = supply a + supply b := by
  induction a with
  | nil => simp [supply]
  | cons entry rest ih => simp only [List.cons_append, supply, ih]; omega

theorem supply_filter_le (p : Trigger × List Cue → Bool) (script : Script) :
    supply (script.filter p) ≤ supply script := by
  induction script with
  | nil => simp [supply]
  | cons entry rest ih =>
    rw [List.filter_cons]
    split <;> simp only [supply] <;> omega

theorem replace_supply_le (script : Script) (triggers : List Trigger) (entries : Script) :
    (script.replace triggers entries).supply ≤ script.supply + entries.supply := by
  rw [replace, supply_append]
  have := supply_filter_le (fun entry => entry.1 ∉ triggers) script
  omega

end Script

/-- The controller at the far end of a rehearsed link. -/
structure FarEnd where
  script : Script := []
  /-- The id of the last request of each kind. -/
  lastRequest : FrameKind → UInt32 := fun _ => 0
  /-- The id of the last state. -/
  lastState : UInt64 := 0

namespace FarEnd

instance : Inhabited FarEnd := ⟨{}⟩

/-- The number of cues left in the script. -/
def supply (f : FarEnd) : Nat := f.script.supply

/-- Plays one cue. -/
def play (f : FarEnd) : Cue → Saying × FarEnd
  | .closed => ({ events := [.closed] }, f)
  | .rawReply frame => ({ events := [.reply frame] }, f)
  | .rawState datagram => ({ events := [.state datagram] }, f)
  | .reply reply id add =>
    ({ events := [.reply (reply.encode (id.getD (f.lastRequest reply.kind) + add))] }, f)
  | .state s => ({ events := [.state s.encode] }, { f with lastState := s.messageId })
  | .nextState s add =>
    let id := f.lastState + add
    ({ events := [.state (State.encode { s with messageId := id })] }, { f with lastState := id })
  | .hangUp => ({ hangsUp := true }, f)
  | .shutdown => ({ interrupts := true }, f)

/-- Plays cues in order. -/
def playAll (f : FarEnd) : List Cue → Saying × FarEnd
  | [] => ({}, f)
  | cue :: rest =>
    let (first, f) := f.play cue
    let (later, f) := f.playAll rest
    (first ++ later, f)

/-- Plays the next entry for a trigger. -/
def respond (f : FarEnd) (t : Trigger) : Saying × FarEnd :=
  let (cues, script) := f.script.take t
  playAll { f with script } cues

/-- Notes the id of a request and answers it. -/
def onRequest (f : FarEnd) (frame : Bytes) : Saying × FarEnd :=
  match Request.decode frame with
  | .error _ => ({}, f)
  | .ok (header, _) =>
    respond
      { f with
        lastRequest := fun kind => if kind = header.kind then header.id else f.lastRequest kind }
      (.request header.kind)

/-- Answers a command. -/
def onCommand (f : FarEnd) (datagram : Bytes) : Saying × FarEnd :=
  match Command.decode datagram with
  | .error _ => ({}, f)
  | .ok command => f.respond (if command.motion.finished then .finished else .running)

@[simp] theorem play_script (f : FarEnd) (cue : Cue) : (f.play cue).2.script = f.script := by
  cases cue <;> rfl

/-- A cue that speaks says one thing. -/
theorem play_length (f : FarEnd) (cue : Cue) :
    (f.play cue).1.events.length = if cue.speaks then 1 else 0 := by
  cases cue <;> rfl

theorem playAll_length (f : FarEnd) (cues : List Cue) :
    (f.playAll cues).1.events.length = cues.countP Cue.speaks := by
  induction cues generalizing f with
  | nil => rfl
  | cons cue rest ih =>
    rw [playAll, Saying.events_append, List.length_append, play_length, ih, List.countP_cons,
      Nat.add_comm]

@[simp] theorem playAll_script (f : FarEnd) (cues : List Cue) :
    (f.playAll cues).2.script = f.script := by
  induction cues generalizing f with
  | nil => rfl
  | cons cue rest ih => simp [playAll, ih]

theorem respond_supply (f : FarEnd) (t : Trigger) :
    (f.respond t).1.events.length + (f.respond t).2.supply = f.supply := by
  simp [respond, supply, playAll_length, Script.take_supply]

theorem onRequest_supply (f : FarEnd) (frame : Bytes) :
    (f.onRequest frame).1.events.length + (f.onRequest frame).2.supply = f.supply := by
  unfold onRequest
  split
  · simp
  · rw [respond_supply]; rfl

theorem onCommand_supply (f : FarEnd) (datagram : Bytes) :
    (f.onCommand datagram).1.events.length + (f.onCommand datagram).2.supply = f.supply := by
  unfold onCommand
  split
  · simp
  · rw [respond_supply]

end FarEnd
end ArmControl
