import ArmControl.Host.Error
import ArmControl.Rehearsal.Stage
import ArmControl.Socket.Basic

/-!
# Rehearsing on the sockets

Both ends of the sockets are on one host, so that everything arrives before the next step.  The client
is told about each socket when something new arrives on it: datagrams that it leaves there, because
the stream was at fault, are taken with the next new one.
-/

namespace ArmControl.Rehearsal

/-- Both ends of the sockets. -/
structure Loopback where
  client : Sockets := {}
  /-- What has arrived on the client's stream. -/
  stream : List StreamRead := []
  /-- What has arrived on the client's datagram socket. -/
  datagrams : List DatagramRead := []
  /-- A datagram has arrived since the client last looked. -/
  newDatagram : Bool := false
  /-- What the client has sent and the far end has not read. -/
  unread : Bytes := []
  /-- The far end still has its end of the stream. -/
  farOpen : Bool := true
  /-- The client has written to a stream without a far end. -/
  broken : Bool := false
deriving Inhabited

inductive SocketStep
  /-- The far end writes to the stream. -/
  | speak (bytes : Bytes)
  /-- A socket of the far end sends a datagram. -/
  | datagram (sender : Peer) (bytes : Bytes)
  | farClose
  /-- The far end closes only its own direction of the stream. -/
  | farFinish
  | receive
  | tryReceive
  /-- The client sends a request, which the far end may leave unread. -/
  | sendRequest (frame : Bytes) (unread : Bool)
  | sendDatagram (bytes : Bytes)
  | peer
  | shutdown
  | close

inductive SocketAnswer
  | done
  | event (event : Incoming)
  | nothing
  /-- What the far end has read. -/
  | read (bytes : Bytes)
  /-- Which socket of the far end got a datagram. -/
  | got (peer : Peer) (bytes : Bytes)
  | peer (peer : Option Peer)
  | isShutdown
  /-- Whether the far end sees the end of the stream, if it still has it. -/
  | closed (seen : Option Bool)
  | failed (err : LinkError)
deriving DecidableEq, Repr

namespace Loopback

/-- What the client is told about when it waits. -/
def wakes (l : Loopback) : List Wake :=
  if l.stream.isEmpty && !l.newDatagram then []
  else
    [.news (if l.stream.isEmpty then none else some l.stream)
      (if l.newDatagram then l.datagrams else [])]

/-- A fault stopped the look before the datagrams. -/
def isStopped : Except LinkError Incoming → Bool
  | .ok _ => false
  | .error .timeout => false
  | .error _ => true

/-- The client takes the next event. -/
def receive (l : Loopback) : Except LinkError Incoming × Loopback :=
  match l.client.receive l.wakes with
  | (result, client, _ :: _) => (result, { l with client })
  | (result, client, []) =>
    (result, { l with
      client
      stream := []
      datagrams := if l.newDatagram && !isStopped result then [] else l.datagrams
      newDatagram := false })

/-- The client sends a request.  The first bytes behind the end of the far end are lost, and further
ones refused. -/
def sendRequest (l : Loopback) (frame : Bytes) : Except LinkError Unit × Loopback :=
  let writes := if l.broken then [.failed HostError.brokenPipe.message] else []
  let (result, client) := l.client.sendRequest writes frame
  match result with
  | .error err => (.error err, { l with client })
  | .ok () =>
    if l.farOpen then (.ok (), { l with client, unread := l.unread ++ frame })
    else (.ok (), { l with client, broken := true })

/-- Sends a datagram to the client. -/
def datagram (l : Loopback) (sender : Peer) (bytes : Bytes) : Loopback :=
  { l with datagrams := l.datagrams ++ [.datagram sender bytes], newDatagram := true }

/-- Adds to what has arrived on the client's stream. -/
def say (l : Loopback) (read : StreamRead) : Loopback := { l with stream := l.stream ++ [read] }

end Loopback

def SocketStep.run (l : Loopback) : SocketStep → SocketAnswer × Loopback
  | speak bytes => (.done, if bytes.isEmpty then l else l.say (.bytes bytes))
  | datagram sender bytes => (.done, l.datagram sender bytes)
  | farClose =>
    (.done, { l.say (if l.unread.isEmpty then .ended else .reset) with farOpen := false, unread := [] })
  | farFinish => (.done, l.say .ended)
  | receive =>
    match l.receive with
    | (.ok event, l) => (.event event, l)
    | (.error err, l) => (.failed err, l)
  | tryReceive =>
    match l.receive with
    | (.ok event, l) => (.event event, l)
    | (.error .timeout, l) => (.nothing, l)
    | (.error err, l) => (.failed err, l)
  | sendRequest frame unread =>
    match l.sendRequest frame with
    | (.error err, l) => (.failed err, l)
    | (.ok (), l) => if unread then (.done, l) else (.read l.unread, { l with unread := [] })
  | sendDatagram bytes =>
    match l.client.sendDatagram .sent bytes, l.client.peer with
    | (.ok (), client), some target => (.got target bytes, { l with client })
    | (.ok (), client), none => (.done, { l with client })
    | (.error err, client), _ => (.failed err, { l with client })
  | peer => (.peer l.client.peer, l)
  | shutdown => (.isShutdown, { l with client := { l.client with shutdown := true } })
  | close =>
    (.closed (if l.farOpen then some true else none), { l with client := l.client.close })

/-- Plays steps on the sockets of a host that reaches itself. -/
def playSockets (steps : List SocketStep) : List SocketAnswer :=
  (play (fun step l => step.run l) steps {}).map (·.1)

end ArmControl.Rehearsal
