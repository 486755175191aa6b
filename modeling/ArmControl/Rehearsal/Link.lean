import ArmControl.Rehearsal.Stage

/-!
# Rehearsing on the link alone
-/

namespace ArmControl.Rehearsal

inductive LinkStep
  | outside (happening : Happening)
  | close
  | receive
  | tryReceive
  | sendRequest (request : Request) (id : UInt32)
  | sendCommand (command : Command)

inductive LinkAnswer
  | done
  | event (event : Incoming)
  | nothing
  | failed (err : LinkError)
deriving DecidableEq, Repr

namespace LinkAnswer

def ofUnit : Except LinkError Unit → LinkAnswer
  | .ok () => done
  | .error err => failed err

def ofEvent : Except LinkError Incoming → LinkAnswer
  | .ok e => event e
  | .error err => failed err

def ofEvent? : Except LinkError (Option Incoming) → LinkAnswer
  | .ok (some e) => event e
  | .ok none => nothing
  | .error err => failed err

end LinkAnswer

def LinkStep.run (l : Link) : LinkStep → LinkAnswer × Link
  | outside happening => (.done, l.happen happening)
  | close => (.done, l.close)
  | receive => (.ofEvent l.receive.1, l.receive.2)
  | tryReceive => (.ofEvent? l.tryReceive.1, l.tryReceive.2)
  | sendRequest request id =>
    let (result, l) := l.sendRequest (request.encode id)
    (.ofUnit result, l)
  | sendCommand command =>
    let (result, l) := l.sendDatagram command.encode
    (.ofUnit result, l)

/-- Plays steps on the link, and gives each answer with the link before and after. -/
def playLink (stage : Stage) (steps : List LinkStep) : List (LinkAnswer × Link × Link) :=
  play (fun step l => step.run l) steps stage.link

end ArmControl.Rehearsal
