import ValueTree.Message.Frame
import ValueTree.Store

/-!
# Errors of a connection
-/

namespace ValueTree

inductive SyncError
  | link (reason : String) (retryable : Bool)
  | wire (error : WireError)
  | store (error : StoreError)
  | notConnected
  | io (reason : String)
deriving DecidableEq, Repr

namespace SyncError

def message : SyncError → String
  | link reason _ => "transport error: " ++ reason
  | wire error => "protocol error: " ++ error.message
  | store error => "store error: " ++ error.message
  | notConnected => "not connected to authority"
  | io reason => "i/o error: " ++ reason

/-- Whether trying again may help. -/
def isRetryable : SyncError → Bool
  | link _ retryable => retryable
  | notConnected | io _ => true
  | wire _ | store _ => false

end SyncError

end ValueTree
