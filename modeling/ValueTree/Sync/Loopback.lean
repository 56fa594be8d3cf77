import ValueTree.Sync.Config
import ValueTree.Sync.Socket

/-!
# The loopback

A socket with a peer on the same machine. The peer can listen, accept, read, write, and close. The
I/O of the socket is done as soon as there is something to do, except while it is held up.
-/

namespace ValueTree

/-! ## Commands -/

inductive LoopbackCommand
  | connect
  | close
  | send (frame : List UInt8)
  /-- The next thing that the socket told. -/
  | notice
  /-- The next bytes that the socket told of, gathered until there are enough of them. -/
  | received (size : Nat)
  /-- Nobody listens to the socket any more. -/
  | dropSink
  | listen
  | unlisten
  | accept
  | peerRead (size : Nat)
  /-- Reads what is left, up to the end of the connection. -/
  | peerReadToEnd
  | peerWrite (bytes : List UInt8)
  | peerClose
  /-- Holds up the I/O of the socket. -/
  | hold
  | release
deriving Repr, Inhabited

inductive LoopbackReply
  | nothing
  | bool (b : Bool)
  | sent (result : Except SyncError Unit)
  | notice (event : Option LinkEvent)
  | bytes (bytes : Option (List UInt8))
  /-- Bytes, and what was told in place of more of them. -/
  | gathered (bytes : List UInt8) (other : Option LinkEvent)
deriving Inhabited

/-! ## State -/

/-- A connection between the socket and the peer. -/
structure Connection where
  number : Nat
  generation : Nat
  /-- Sent by the socket and not yet written. -/
  unsent : List UInt8 := []
  /-- Written and not yet read by the peer. -/
  toPeer : List UInt8 := []
  /-- Written by the peer and not yet read. -/
  fromPeer : List UInt8 := []
  /-- The socket closed its end. -/
  left : Bool := false
  /-- The peer closed its end. -/
  peerLeft : Bool := false
deriving DecidableEq, Repr, Inhabited

structure Loopback where
  /-- Whether any way leads to the peer. -/
  reachable : Bool
  socket : Socket := {}
  listening : Bool := false
  held : Bool := false
  /-- The generations of the attempts that are under way. -/
  attempts : List Nat := []
  connections : List Connection := []
  /-- The connection of the socket. -/
  live : Option Nat := none
  /-- The connections that the peer has not yet accepted, oldest first. -/
  backlog : List Nat := []
  /-- The connection that the peer works with. -/
  current : Option Nat := none
  sink : Bool := true
  /-- What the socket told and nobody asked for yet. -/
  notices : List LinkEvent := []
deriving Repr

namespace Loopback

/-- A peer at the other end of a path. To an address nothing leads. -/
def fresh : Endpoint → Loopback
  | .tcp _ => { reachable := false }
  | .unix _ => { reachable := true }

def connection? (l : Loopback) (number : Option Nat) : Option Connection :=
  number.bind fun n => l.connections.find? (·.number = n)

def adjust (l : Loopback) (number : Option Nat) (f : Connection → Connection) : Loopback :=
  { l with connections := l.connections.map fun s => if some s.number = number then f s else s }

def tell (l : Loopback) (event : LinkEvent) : Loopback :=
  if l.sink then { l with notices := l.notices ++ [event] } else l

/-- The socket takes a step and tells of it. -/
def socketStep (l : Loopback) (step : Option LinkEvent × Socket) : Loopback :=
  let stepped := { l with socket := step.2 }
  match step.1 with
  | some event => stepped.tell event
  | none => stepped

/-! ## The I/O of the socket -/

/-- An attempt comes to its end. With a peer that listens there is a connection, which is closed
again if the socket does not want it any more. -/
def finish (l : Loopback) (generation : Nat) : Loopback :=
  if l.reachable && l.listening then
    let wanted := l.socket.generation = generation
    let connection : Connection := { number := l.connections.length, generation, left := !wanted }
    { l with
      connections := l.connections ++ [connection]
      backlog := l.backlog ++ [connection.number]
      live := if wanted then some connection.number else l.live }.socketStep
        (l.socket.attach generation)
  else l.socketStep (l.socket.failed generation)

/-- Writes what was sent. -/
def flush (s : Connection) : Connection := { s with unsent := [], toPeer := s.toPeer ++ s.unsent }

/-- How many bytes are read at once. -/
def readSize : Nat := 8192

/-- The pieces in which bytes are read, whatever the writes were. -/
def pieces (bytes : List UInt8) : List (List UInt8) := cut readSize (by decide) bytes

/-- Writes and reads on the connection, and notes its end. -/
def exchange (l : Loopback) : Loopback :=
  match l.connection? l.live with
  | none => l
  | some connection =>
    let flushed := l.adjust l.live fun s => { flush s with fromPeer := [] }
    let read := (pieces connection.fromPeer).foldl
      (fun l piece => l.tell (.received piece)) flushed
    if connection.peerLeft then
      { read.adjust l.live fun s => { s with left := true } with live := none }.socketStep
        (read.socket.lost connection.generation)
    else read

/-- Does what there is to do, unless it is held up. -/
def pump (l : Loopback) : Loopback :=
  if l.held then l
  else (l.attempts.foldl finish { l with attempts := [] }).exchange

/-! ## Commands to the socket -/

def connect (l : Loopback) : Loopback :=
  match l.socket.begin? with
  | none => l
  | some (generation, socket) => { l with socket, attempts := l.attempts ++ [generation] }

/-- What was sent and not yet written is gone. -/
def close (l : Loopback) : Loopback :=
  { l.adjust l.live fun s => { s with left := true, unsent := [] } with
    socket := l.socket.close
    live := none }

def send (l : Loopback) (frame : List UInt8) : Loopback :=
  l.adjust l.live fun s => { s with unsent := s.unsent ++ frame }

/-- Gathers bytes until none are missing or something else was told. Gives them, what was told in
their place, and what is left. -/
def gather : (missing : Nat) → List LinkEvent → List UInt8 × Option LinkEvent × List LinkEvent
  | 0, events => ([], none, events)
  | _, [] => ([], none, [])
  | missing, .received bytes :: rest =>
    let (more, other, left) := gather (missing - bytes.length) rest
    (bytes ++ more, other, left)
  | _, other :: rest => ([], some other, rest)

/-! ## Commands to the peer -/

/-- The peer closes one of its connections. -/
def leave (l : Loopback) (number : Option Nat) : Loopback :=
  l.adjust number fun s => { s with peerLeft := true }

/-- Connections that were not accepted are closed. -/
def unlisten (l : Loopback) : Loopback :=
  { l.backlog.foldl (fun l number => l.leave (some number)) l with
    listening := false
    backlog := [] }

/-- Takes the oldest connection in place of the one before. -/
def accept (l : Loopback) : Bool × Loopback :=
  match l.backlog with
  | [] => (false, l)
  | number :: rest => (true, { l.leave l.current with backlog := rest, current := some number })

/-- Bytes that the peer reads, if there are enough of them. -/
def peerRead (l : Loopback) (size : Nat) : Option (List UInt8) × Loopback :=
  match l.connection? l.current with
  | none => (none, l)
  | some s =>
    if s.toPeer.length < size then (none, l)
    else (some (s.toPeer.take size),
      l.adjust l.current fun s => { s with toPeer := s.toPeer.drop size })

/-- What is left to read, if the socket closed its end. -/
def peerReadToEnd (l : Loopback) : Option (List UInt8) × Loopback :=
  match l.connection? l.current with
  | none => (none, l)
  | some s =>
    if s.left then (some s.toPeer, l.adjust l.current fun s => { s with toPeer := [] })
    else (none, l)

/-- Writes, unless the socket closed its end. -/
def peerWrite (l : Loopback) (bytes : List UInt8) : Bool × Loopback :=
  match l.connection? l.current with
  | none => (false, l)
  | some s =>
    if s.left then (false, l)
    else (true, l.adjust l.current fun s => { s with fromPeer := s.fromPeer ++ bytes })

/-! ## Carrying out -/

def act (l : Loopback) : LoopbackCommand → LoopbackReply × Loopback
  | .connect => (.nothing, l.connect)
  | .close => (.nothing, l.close)
  | .send frame => (.sent l.socket.accepts, l.send frame)
  | .notice => (.notice l.notices.head?, { l with notices := l.notices.tail })
  | .received size =>
    let (bytes, other, notices) := gather size l.notices
    (.gathered bytes other, { l with notices })
  | .dropSink => (.nothing, { l with sink := false })
  | .listen => (.nothing, { l with listening := true })
  | .unlisten => (.nothing, l.unlisten)
  | .accept => let (accepted, l) := l.accept; (.bool accepted, l)
  | .peerRead size => let (bytes, l) := l.peerRead size; (.bytes bytes, l)
  | .peerReadToEnd => let (bytes, l) := l.peerReadToEnd; (.bytes bytes, l)
  | .peerWrite bytes => let (written, l) := l.peerWrite bytes; (.bool written, l)
  | .peerClose => (.bool l.current.isSome, { l.leave l.current with current := none })
  | .hold => (.nothing, { l with held := true })
  | .release => (.nothing, { l with held := false })

/-- Carries out a command and the I/O that comes of it. -/
def step (l : Loopback) (command : LoopbackCommand) : LoopbackReply × Loopback :=
  let (reply, l) := l.act command
  (reply, l.pump)

/-- The reply to each command, and the loopback after it. -/
def steps (l : Loopback) : List LoopbackCommand → List (LoopbackReply × Loopback)
  | [] => []
  | command :: rest =>
    let row := l.step command
    row :: row.2.steps rest

end Loopback

end ValueTree
