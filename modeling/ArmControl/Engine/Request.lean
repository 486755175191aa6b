import ArmControl.Engine.Cycle

/-!
# Requests of the engine

A request is sent and its reply awaited.  States and replies that arrive in between are taken as
usual, but the errors they give rise to cannot be raised here: the first one is deferred to the next
cycle.
-/

namespace ArmControl.Engine

/-- The reply to the request with this kind and id ends the wait. -/
def judgeReply (kind : FrameKind) (id : UInt32) : Judge Reply
  | .reply header reply, m =>
    if header.kind = kind ∧ header.id = id then (some (.ok reply), m)
    else (none, Motion.defer (m.handle header reply))
  | .state s, m => (none, Motion.defer (m.observe s.motionMode))

/-- Waits for the reply to the request with this kind and id. -/
def awaitReply (kind : FrameKind) (id : UInt32) (e : Engine) : Except SessionError Reply × Engine :=
  e.wait (judgeReply kind id) (.error .closed)

/-- Sends a request and waits for its reply; gives the id of the request as well. -/
def execute (request : Request) (e : Engine) : Except SessionError (UInt32 × Reply) × Engine :=
  match e.session.send request with
  | (.error err, session) => (.error (.link err), { e with session })
  | (.ok id, session) =>
    match awaitReply request.kind id { e with session } with
    | (.error err, e) => (.error err, e)
    | (.ok reply, e) => (.ok (id, reply), e)

theorem send_supply (request : Request) (s : Session) :
    (s.send request).2.link.supply = s.link.supply := by
  have h := s.link.sendRequest_supply (request.encode s.nextId)
  unfold Session.send
  simp only
  split <;> (rename_i hsend; rw [hsend] at h; exact h)

end ArmControl.Engine
