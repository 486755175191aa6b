import ArmControl.Engine.Clock
import ArmControl.Motion.Basic
import ArmControl.Session

/-!
# The engine of a session

The engine owns the session and knows the last state and the motion in progress.  Everything it does
is built from one kind of wait: `Engine.wait` takes events off the link until one of them decides.

On the way it accepts the states that are newer than the last one, drops the others as stale, and
counts what it takes.  What an accepted state or a reply means is left to the `judge` of the wait,
which sees only the motion in progress.  The wait ends at once when the link gives no event, when a
message cannot be read, and when the far end has closed the channel.
-/

namespace ArmControl

structure Engine where
  session : Session
  settings : Settings
  clock : Clock
  motion : Motion := {}
  /-- The controller that was last confirmed. -/
  controllerMode : Option ControllerMode := none
  /-- The last state that was accepted. -/
  lastState : Option State := none
  /-- The state that is shown to everybody outside the engine. -/
  published : Option State := none
deriving Inhabited

/-- What a wait is asked to judge. -/
inductive Event
  | state (state : State)
  | reply (header : Header) (reply : Reply)
deriving DecidableEq, Repr

/-- What became of a message that the link gave. -/
inductive Intake
  /-- It is to be judged. -/
  | event (event : Event)
  /-- It was a state no newer than the last one. -/
  | stale
  /-- It was the end of the channel. -/
  | ended
deriving DecidableEq, Repr

/-- What an event means to a wait: nothing, or its end. -/
abbrev Judge (α : Type) := Event → Motion → Option (Except SessionError α) × Motion

namespace Engine

/-- The engine of a session that has just begun. -/
def start (session : Session) (settings : Settings) (clock : Clock) : Engine :=
  { session, settings, clock }

def link (e : Engine) : Link := e.session.link

def metrics (e : Engine) : Metrics := e.session.metrics

def withLink (e : Engine) (link : Link) : Engine := { e with session := { e.session with link } }

def count (e : Engine) (f : Metrics → Metrics) : Engine :=
  { e with session := { e.session with metrics := f e.session.metrics } }

def withMotion (e : Engine) (motion : Motion) : Engine := { e with motion }

/-- How many events can still reach the client. -/
def supply (e : Engine) : Nat := e.link.supply

/-- The number of the last state that was accepted. -/
def lastId (e : Engine) : Option UInt64 := e.lastState.map State.messageId

/-- The state is newer than the last one. -/
def isFresh (e : Engine) (s : State) : Bool :=
  match e.lastId with
  | none => true
  | some last => last < s.messageId

/-- Takes a new state. -/
def accept (e : Engine) (s : State) : Engine :=
  { e.count Metrics.countState with lastState := some s, published := some s }

/-- Takes what the link gave: counts it, accepts a newer state, and refuses what cannot be read. -/
def intake (e : Engine) : Incoming → Except SessionError Intake × Engine
  | .state datagram =>
    match State.decode datagram with
    | .error err => (.error (.wire err), e)
    | .ok s =>
      if e.isFresh s then (.ok (.event (.state s)), e.accept s)
      else (.ok .stale, e.count Metrics.countStale)
  | .reply frame =>
    let e := e.count Metrics.countReply
    match Reply.decode frame with
    | .error err => (.error (.wire err), e)
    | .ok (header, reply) => (.ok (.event (.reply header reply)), e)
  | .closed => (.ok .ended, e)

theorem intake_link (e : Engine) (incoming : Incoming) : (e.intake incoming).2.link = e.link := by
  unfold intake
  split
  · split
    · rfl
    · split <;> rfl
  · simp only
    split <;> rfl
  · rfl

/-- Only the end of the channel has nothing to wait for behind it. -/
theorem ne_closed_of_intake {e : Engine} {incoming : Incoming} {a : Intake}
    (h : (e.intake incoming).1 = .ok a) (ha : a ≠ .ended) : incoming ≠ .closed := by
  rintro rfl
  simp [intake] at h
  exact ha h.symm

/-- The link gave no event. -/
def starve (e : Engine) (err : LinkError) (link : Link) : Engine :=
  match err with
  | .timeout => (e.withLink link).count Metrics.countTimeout
  | _ => e.withLink link

/-- A message that was taken and is not the end of the channel is no longer pending. -/
theorem intake_length_lt {e e' : Engine} {incoming : Incoming} {link : Link} {a : Intake}
    (hr : e.link.receive = (.ok incoming, link))
    (ha : (e.withLink link).intake incoming = (.ok a, e')) (hne : a ≠ .ended) :
    e'.link.pending.length < e.link.pending.length := by
  have hlink := (e.withLink link).intake_link incoming
  rw [ha] at hlink
  simp only at hlink
  rw [hlink]
  exact Link.receive_length_lt hr (ne_closed_of_intake (by rw [ha]) hne)

/-- Takes events off the link until one decides; `ended` is the result if the far end has closed the
channel. -/
def wait {α : Type} (judge : Judge α) (ended : Except SessionError α) (e : Engine) :
    Except SessionError α × Engine :=
  match _r : e.link.receive with
  | (.error err, link) => (.error (.link err), e.starve err link)
  | (.ok incoming, link) =>
    match _a : (e.withLink link).intake incoming with
    | (.error err, e') => (.error err, e')
    | (.ok .ended, e') => (ended, e')
    | (.ok .stale, e') => wait judge ended e'
    | (.ok (.event event), e') =>
      match judge event e'.motion with
      | (some result, motion) => (result, e'.withMotion motion)
      | (none, motion) => wait judge ended (e'.withMotion motion)
termination_by e.link.pending.length
decreasing_by
  all_goals
    have hlt := intake_length_lt _r _a (by simp)
    exact hlt

end Engine
end ArmControl
