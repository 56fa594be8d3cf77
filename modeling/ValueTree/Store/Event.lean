import ValueTree.Value

/-!
# Store events

What a store tells its observers. An event carries the value as it was right after the change.
-/

namespace ValueTree

inductive Event
  /-- A value came into being. -/
  | added (value : Value) (origin : Origin)
  /-- The payload of a value was replaced. -/
  | changed (value : Value) (origin : Origin)
  /-- A value is gone. -/
  | removed (id : Id) (token : Token) (origin : Origin)
  /-- A container has a new key. -/
  | keyAdded (container : Id) (key : String) (origin : Origin)
  /-- A container lost a key, and with it the whole instance. -/
  | keyRemoved (container : Id) (key : String) (origin : Origin)
deriving DecidableEq, Repr, Inhabited

namespace Event

/-- The id that the event is about; for keys it is the container. -/
def id : Event → Id
  | added value _ | changed value _ => value.id
  | removed id _ _ => id
  | keyAdded container _ _ | keyRemoved container _ _ => container

def origin : Event → Origin
  | added _ origin | changed _ origin | removed _ _ origin | keyAdded _ _ origin
  | keyRemoved _ _ origin => origin

end Event

end ValueTree
