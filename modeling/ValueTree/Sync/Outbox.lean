import ValueTree.Message

/-!
# The outbox

Messages leave in the order in which they came. Each takes a task of its own, the drain, and one
drain leads to the next until the outbox is empty or the connection is down.
-/

namespace ValueTree

structure Outbox where
  messages : List Message := []
  connected : Bool := false
  /-- A drain is on the agenda. -/
  draining : Bool := false
deriving DecidableEq, Repr, Inhabited

namespace Outbox

/-- There is something to send, and no drain that will. -/
def wantsDrain (o : Outbox) : Bool := !o.draining && o.connected && !o.messages.isEmpty

def push (o : Outbox) (message : Message) : Outbox :=
  { o with messages := o.messages ++ [message] }

def clear (o : Outbox) : Outbox := { o with messages := [] }

def size (o : Outbox) : Nat := o.messages.length

/-- What a drain takes; one that finds nothing to send is the last. -/
def take (o : Outbox) : Option Message × Outbox :=
  match o.connected, o.messages with
  | true, message :: rest => (some message, { o with messages := rest })
  | _, _ => (none, { o with draining := false })

end Outbox

end ValueTree
