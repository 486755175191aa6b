import ArmControl.Link.Basic
import ArmControl.Metrics

/-!
# Sessions

A session numbers the requests that it sends over its link and begins with a handshake: it sends a
`connect` request and waits for the reply to it.  `Session.handshake` is decided by that reply, by a
reply that cannot be read, or by the end of the channel; everything else that arrives before is
passed over.
-/

namespace ArmControl

/-- The version of the protocol that this library speaks. -/
def protocolVersion : UInt16 := 1

structure Session where
  link : Link
  /-- The version that the controller named in the handshake. -/
  serverVersion : UInt16 := 0
  /-- The id of the next request. -/
  nextId : UInt32 := 0
  metrics : Metrics := {}
deriving Inhabited

namespace Session

/-- Sends a request under the next id.  The id is used up even if the link refuses the request. -/
def send (s : Session) (request : Request) : Except LinkError UInt32 × Session :=
  let id := s.nextId
  let s := { s with nextId := id + 1 }
  match s.link.sendRequest (request.encode id) with
  | (.error err, link) => (.error err, { s with link })
  | (.ok (), link) => (.ok id, { s with link, metrics := s.metrics.countRequest })

/-- What a reply to the `connect` request decides. -/
def judgeConnect (status : ConnectStatus) (version : UInt16) : Except SessionError UInt16 :=
  match status with
  | .success => .ok version
  | .incompatibleVersion => .error (.incompatibleVersion version protocolVersion)
  | .rejected => .error (.refused (.connection .rejected))

/-- Waits for the reply to the `connect` request with this id. -/
def awaitConnect (id : UInt32) (s : Session) : Except SessionError UInt16 × Session :=
  match _h : s.link.receive with
  | (.error err, link) => (.error (.link err), { s with link })
  | (.ok .closed, link) => (.error .closed, { s with link })
  | (.ok (.state _), link) => awaitConnect id { s with link }
  | (.ok (.reply frame), link) =>
    let s' := { s with link, metrics := s.metrics.countReply }
    match Reply.decode frame with
    | .error err => (.error (.wire err), s')
    | .ok (header, .connect status version) =>
      if header.id = id then (judgeConnect status version, s') else awaitConnect id s'
    | .ok _ => awaitConnect id s'
termination_by s.link.pending.length
decreasing_by all_goals exact Link.receive_length_lt _h (by simp)

/-- Agrees on a version with the controller at the far end of a link. -/
def handshake (link : Link) : Except SessionError Unit × Session :=
  match send { link } (.connect protocolVersion Link.statePort) with
  | (.error err, s) => (.error (.link err), s)
  | (.ok id, s) =>
    match s.awaitConnect id with
    | (.error err, s) => (.error err, s)
    | (.ok version, s) => (.ok (), { s with serverVersion := version })

end Session
end ArmControl
