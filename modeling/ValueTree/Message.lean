import ValueTree.Value

/-!
# Messages

What a client and the authority say to each other. Requests carry a sequence number, and the result
of a request carries the same one.
-/

namespace ValueTree

inductive Update
  /-- The current state of a value. -/
  | set (value : Value)
  | addKey (container : Id) (key : String)
  | removeKey (container : Id) (key : String)
deriving DecidableEq, Repr, Inhabited

namespace Update

/-- What is updated; for keys it is the container. -/
def id : Update → Id
  | set value => value.id
  | addKey container _ | removeKey container _ => container

/-- Whether the update is about a key. -/
def isDirective : Update → Bool
  | set _ => false
  | _ => true

end Update

inductive Status
  | success
  /-- Some of the ids are not there. -/
  | notFound
  | other (code : UInt32)
deriving DecidableEq, Repr, Inhabited

namespace Status

def isSuccess : Status → Bool
  | success => true
  | _ => false

end Status

inductive Message
  /-- Asks for the values at and below some ids, now and whenever they change. -/
  | subscribe (sequence : UInt32) (ids : List Id)
  /-- Ends every subscription. -/
  | unsubscribe (sequence : UInt32)
  | valueChanged (updates : List Update)
  /-- The tokens go with the ids, one each. -/
  | valueRemoved (ids : List Id) (tokens : List Token)
  /-- Asks for values once. -/
  | multiGet (sequence : UInt32) (ids : List Id)
  | multiSet (sequence : UInt32) (values : List Value)
  | result (sequence : UInt32) (status : Status) (values : List Value)
  /-- Everything lost with a connection has been sent again. -/
  | syncCompleted
deriving DecidableEq, Repr, Inhabited

namespace Message

def typeCode : Message → Nat
  | subscribe .. => 1
  | unsubscribe _ => 2
  | valueChanged _ => 3
  | valueRemoved .. => 4
  | multiGet .. => 5
  | multiSet .. => 6
  | result .. => 7
  | syncCompleted => 8

def sequence? : Message → Option UInt32
  | subscribe sequence _ | unsubscribe sequence | multiGet sequence _ | multiSet sequence _
  | result sequence _ _ => some sequence
  | valueChanged _ | valueRemoved .. | syncCompleted => none

/-- A removal with the proper tokens. -/
def removal (ids : List Id) : Message := valueRemoved ids (ids.map Id.token)

end Message

end ValueTree
