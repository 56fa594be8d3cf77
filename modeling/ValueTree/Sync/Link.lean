import ValueTree.Sync.Error

/-!
# The link

A connection to the authority that lives in memory. It can be reached or not, and it keeps what was
sent.
-/

namespace ValueTree

/-- What a link tells of itself. -/
inductive LinkEvent
  | connected
  | disconnected
  | received (bytes : List UInt8)
deriving DecidableEq, Repr, Inhabited

/-- Bytes cut into pieces of a size; the last may be shorter. -/
def cut (size : Nat) (positive : 0 < size) : List UInt8 → List (List UInt8)
  | [] => []
  | byte :: rest => (byte :: rest).take size :: cut size positive ((byte :: rest).drop size)
termination_by bytes => bytes.length
decreasing_by
  simp only [List.length_drop, List.length_cons]
  omega

structure Link where
  connected : Bool := false
  reachable : Bool := true
  attempts : Nat := 0
  /-- The frames sent and not yet taken, in order. -/
  sent : List (List UInt8) := []
deriving DecidableEq, Repr, Inhabited

namespace Link

/-- Tries to connect. A link that is up already comes up again. -/
def connect (l : Link) : Except SyncError Unit × Link :=
  let l := { l with attempts := l.attempts + 1 }
  if l.reachable then (.ok (), { l with connected := true })
  else (.error (.link "authority unreachable" true), l)

def close (l : Link) : Link := { l with connected := false }

def send (l : Link) (frame : List UInt8) : Except SyncError Unit × Link :=
  if l.connected then (.ok (), { l with sent := l.sent ++ [frame] })
  else (.error .notConnected, l)

/-- Sends a message in a frame. A message that no frame can hold is lost, and so is one that the
link does not take. -/
def sendMessage (l : Link) (framing : Framing) (message : Message) : Link :=
  match message.frame? framing with
  | .ok frame => (l.send frame).2
  | .error _ => l

/-- The messages at the front of a buffer. Each takes a header, so the bytes bound their number. -/
def drainMessages : (fuel : Nat) → Deframer → Except WireError (List Message × Deframer)
  | 0, d => .ok ([], d)
  | fuel + 1, d =>
    match d.nextMessage with
    | (.ok none, d) => .ok ([], d)
    | (.error e, _) => .error e
    | (.ok (some message), d) =>
      match drainMessages fuel d with
      | .ok (more, d) => .ok (message :: more, d)
      | .error e => .error e

def messagesOf (d : Deframer) : List (List UInt8) → Except WireError (List Message)
  | [] => .ok []
  | frame :: rest =>
    let d := d.feed frame
    match drainMessages (d.buffered + 1) d with
    | .error e => .error e
    | .ok (messages, d) =>
      match messagesOf d rest with
      | .ok more => .ok (messages ++ more)
      | .error e => .error e

/-- Takes what was sent, as messages. Nothing is left, even if something in it is no message. -/
def takeMessages (l : Link) : Except SyncError (List Message) × Link :=
  ((messagesOf {} l.sent).mapError .wire, { l with sent := [] })

end Link

end ValueTree
