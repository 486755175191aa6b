import ArmControl.Rehearsal.Link
import ArmControl.Session

/-!
# Rehearsing a session
-/

namespace ArmControl.Rehearsal

inductive SessionStep
  | outside (happening : Happening)
  | close
  | send (request : Request)
  | receive
  | statePort

inductive SessionAnswer
  | done
  | sent (id : UInt32)
  | event (event : Incoming)
  | port (port : UInt16)
  | refused (err : SessionError)
  | failed (err : LinkError)
deriving DecidableEq, Repr

def SessionStep.run (s : Session) : SessionStep → SessionAnswer × Session
  | outside happening => (.done, { s with link := s.link.happen happening })
  | close => (.done, { s with link := s.link.close })
  | send request =>
    match s.send request with
    | (.ok id, s) => (.sent id, s)
    | (.error err, s) => (.refused (.link err), s)
  | receive =>
    match s.link.receive with
    | (.ok event, link) => (.event event, { s with link })
    | (.error err, link) => (.failed err, { s with link })
  | statePort => (.port Link.statePort, s)

/-- Makes a session of the link and plays steps on it. -/
def playSession (stage : Stage) (steps : List SessionStep) :
    Except SessionError Unit × Session × List (SessionAnswer × Session × Session) :=
  match Session.handshake stage.link with
  | (.error err, s) => (.error err, s, [])
  | (.ok (), s) => (.ok (), s, play (fun step s => step.run s) steps s)

end ArmControl.Rehearsal
