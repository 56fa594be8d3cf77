import ValueTree.Id.Token
import ValueTree.Payload.Assign

/-!
# Values

A value is a payload with a name and an access mode. Every change of a value has an origin.
-/

namespace ValueTree

inductive Access
  /-- Only the owner may write. -/
  | readOnly
  | readWrite
deriving DecidableEq, Repr, Inhabited

/-- Where a change came from. -/
inductive Origin
  /-- This process. -/
  | «local»
  /-- The other end of a connection. -/
  | remote
deriving DecidableEq, Repr, Inhabited

structure Value where
  id : Id
  access : Access := .readWrite
  payload : Payload
deriving DecidableEq, Repr, Inhabited

namespace Value

def kind (v : Value) : Kind := v.payload.kind

def isReadOnly (v : Value) : Bool := v.access = .readOnly

def hasData (v : Value) : Bool := v.payload.hasData

/-- Assigns a payload; after an error the value is the old one. -/
def assign (v : Value) (incoming : Payload) : Except SetError (SetStatus × Value) :=
  (v.payload.assign incoming).map fun (status, payload) => (status, { v with payload })

end Value

end ValueTree
