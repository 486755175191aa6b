import ArmControl.Link.FarEnd
import ArmControl.Error
import ArmControl.Socket.Frames

/-!
# Sockets

Between real hosts the reliable channel is a stream and the unreliable one a datagram socket.
`Sockets` is the client's side of both.  What the host does with them is given from outside: what comes
of the client's waiting for them (`Wake`), what becomes of the bytes that it writes (`StreamWrite`), and
of its datagrams (`DatagramWrite`).

The client looks at the sockets only when it has nothing left to hand out, and then takes all that is
there: first the stream, of which it keeps what is not yet a whole frame, and then the datagrams.  A
frame of a wrong size is a fault that stops the look, behind the frames before it.
-/

namespace ArmControl

/-- A socket that datagrams come from and go to. -/
abbrev Peer := Nat

/-- What reading the stream gives. -/
inductive StreamRead
  | bytes (chunk : Bytes)
  /-- The reading was interrupted, and is tried again. -/
  | interrupted
  /-- The far end sends nothing more. -/
  | ended
  /-- The far end has broken off the connection. -/
  | reset
  | failed (text : String)
deriving DecidableEq, Repr, Inhabited

/-- What reading the datagram socket gives. -/
inductive DatagramRead
  | datagram (sender : Peer) (bytes : Bytes)
  | interrupted
  | failed (text : String)
deriving DecidableEq, Repr, Inhabited

/-- What comes of waiting for the sockets once. -/
inductive Wake
  /-- There is news of the stream, or none, and of the datagram socket: what reading each of them gives,
  until it has nothing more.  A wait that was interrupted or has lasted long enough brings no news. -/
  | news (stream : Option (List StreamRead)) (datagrams : List DatagramRead)
  | failed (text : String)
deriving DecidableEq, Repr, Inhabited

/-- What becomes of bytes that are written to the stream. -/
inductive StreamWrite
  /-- So many of them are taken; none, if the channel is closed. -/
  | taken (count : Nat)
  /-- There is no room yet; `late` if there has been none for too long. -/
  | full (late : Bool)
  /-- The writing was interrupted, and is tried again. -/
  | interrupted
  | failed (text : String)
deriving DecidableEq, Repr, Inhabited

/-- What becomes of a datagram. -/
inductive DatagramWrite
  | sent
  /-- There was no room for it. -/
  | dropped
  | failed (text : String)
deriving DecidableEq, Repr, Inhabited

structure Sockets where
  /-- What has arrived and the client has not yet taken. -/
  pending : List Incoming := []
  /-- The end of the stream that is not yet a whole frame. -/
  unframed : Bytes := []
  /-- Where the last datagram came from. -/
  peer : Option Peer := none
  /-- What the client has written to the stream. -/
  written : Bytes := []
  /-- The datagrams that have left the client, and where they went. -/
  sent : List (Peer × Bytes) := []
  /-- The far end sends nothing more. -/
  farClosed : Bool := false
  /-- The client has closed the sockets. -/
  closed : Bool := false
  /-- Somebody asked for the client's waits to end. -/
  shutdown : Bool := false
deriving DecidableEq, Repr, Inhabited

namespace Sockets

/-- The longest datagram that is taken whole. -/
def maxDatagram : Nat := 2048

/-! ### Taking what is there -/

/-- Takes the bytes of the stream, up to its end. -/
def readStream : List StreamRead → Sockets → Except LinkError Unit × Sockets
  | [], s => (.ok (), s)
  | .bytes chunk :: rest, s => readStream rest { s with unframed := s.unframed ++ chunk }
  | .interrupted :: rest, s => readStream rest s
  | .ended :: _, s => (.ok (), { s with farClosed := true })
  | .reset :: _, s => (.ok (), { s with farClosed := true })
  | .failed text :: _, s => (.error (.io text), s)

/-- Queues the whole frames among the bytes taken. -/
def queueFrames (s : Sockets) : Except LinkError Unit × Sockets :=
  let found := Frames.cut s.unframed
  let s := { s with
    pending := s.pending ++ found.frames.map Incoming.reply
    unframed := found.rest }
  match found.wrongSize with
  | some size => (.error (.invalidFrame size), s)
  | none => (.ok (), s)

/-- Takes what the stream has. -/
def drain (reads : List StreamRead) (s : Sockets) : Except LinkError Unit × Sockets :=
  if s.farClosed then (.ok (), s)
  else
    match s.readStream reads with
    | (.error err, s) => (.error err, s)
    | (.ok (), s) => s.queueFrames

/-- Takes the datagrams, each cut to the length that is taken. -/
def drainDatagrams : List DatagramRead → Sockets → Except LinkError Unit × Sockets
  | [], s => (.ok (), s)
  | .datagram sender bytes :: rest, s =>
    drainDatagrams rest
      { s with peer := some sender, pending := s.pending ++ [.state (bytes.take maxDatagram)] }
  | .interrupted :: rest, s => drainDatagrams rest s
  | .failed text :: _, s => (.error (.io text), s)

/-- Waits for the sockets once and takes what is on them, the stream first. -/
def look (w : Wake) (s : Sockets) : Except LinkError Unit × Sockets :=
  match w with
  | .failed text => (.error (.io text), s)
  | .news stream datagrams =>
    match (stream.elim (.ok (), s) fun reads => s.drain reads) with
    | (.error err, s) => (.error err, s)
    | (.ok (), s) => s.drainDatagrams datagrams

/-- Takes the next event, looking at the sockets as often as there is a waking before the deadline; gives
the wakings that are left. -/
def receive : List Wake → Sockets → Except LinkError Incoming × Sockets × List Wake
  | wakes, s =>
    if s.closed || s.shutdown then (.error .closed, s, wakes)
    else
      match s.pending with
      | event :: rest => (.ok event, { s with pending := rest }, wakes)
      | [] =>
        if s.farClosed then (.ok .closed, s, wakes)
        else
          match wakes with
          | [] => (.error .timeout, s, [])
          | w :: later =>
            match s.look w with
            | (.error err, s) => (.error err, s, later)
            | (.ok (), s) => receive later s

/-! ### Sending -/

/-- Writes bytes to the stream until all of them are taken.  What the host does is given in order; after
that it takes everything. -/
def write : List StreamWrite → Bytes → Sockets → Except LinkError Unit × Sockets
  | _, [], s => (.ok (), s)
  | [], bytes, s => (.ok (), { s with written := s.written ++ bytes })
  | .taken 0 :: _, _ :: _, s => (.error .closed, s)
  | .taken (n + 1) :: rest, b :: bytes, s =>
    write rest ((b :: bytes).drop (n + 1)) { s with written := s.written ++ (b :: bytes).take (n + 1) }
  | .full late :: rest, b :: bytes, s =>
    if late then (.error .timeout, s) else write rest (b :: bytes) s
  | .interrupted :: rest, b :: bytes, s => write rest (b :: bytes) s
  | .failed text :: _, _ :: _, s => (.error (.io text), s)

/-- Sends a request frame. -/
def sendRequest (writes : List StreamWrite) (frame : Bytes) (s : Sockets) :
    Except LinkError Unit × Sockets :=
  if s.closed || s.farClosed then (.error .closed, s) else s.write writes frame

/-- Sends a command datagram to where the last datagram came from. -/
def sendDatagram (fate : DatagramWrite) (datagram : Bytes) (s : Sockets) :
    Except LinkError Unit × Sockets :=
  match s.peer with
  | none => (.error .noPeer, s)
  | some peer =>
    match fate with
    | .sent => (.ok (), { s with sent := s.sent ++ [(peer, datagram)] })
    | .dropped => (.ok (), s)
    | .failed text => (.error (.io text), s)

/-- Closes the sockets on the client's side. -/
def close (s : Sockets) : Sockets := { s with closed := true }

end Sockets
end ArmControl
