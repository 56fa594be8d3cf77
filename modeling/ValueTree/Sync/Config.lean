import ValueTree.Frame
import ValueTree.Id
import ValueTree.Payload.Address
import ValueTree.Sync.Backoff

/-!
# Client configuration
-/

namespace ValueTree

/-- Where the authority listens. -/
inductive Endpoint
  | tcp (address : SocketAddress)
  | unix (path : String)
deriving DecidableEq, Repr

namespace Endpoint

def toText : Endpoint → String
  | tcp address => "tcp://" ++ address.toText
  | unix path => "unix://" ++ path

def defaultService : Nat := 7400

/-- The default service on this machine. -/
def default : Endpoint := tcp (.v4 Ipv4.localhost defaultService)

end Endpoint

structure ClientConfig where
  app : String := "vstore"
  endpoint : Endpoint := .default
  autoReconnect : Bool := true
  /-- Below these ids every application has an entry of its own. -/
  sharedRoots : List Id := [⟨["logger"]⟩, ⟨["dmo"]⟩]
  backoff : Backoff := {}
  framing : Framing := .marked
  frameLimit : Nat := 16777216
deriving DecidableEq, Repr

end ValueTree
