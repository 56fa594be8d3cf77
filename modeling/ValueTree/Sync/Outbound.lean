import ValueTree.Message
import ValueTree.Store.Event

/-!
# From events to messages

Local changes are sent, changes that came from the other end are not sent back. Removals are always
sent, and values that are not set never are.
-/

namespace ValueTree

/-- The update that a change of a value makes. -/
def Update.ofValue? (value : Value) : Option Update :=
  if value.kind = .unset then none else some (.set value)

/-- The update that an event makes at the other end. -/
def Event.update? : Event → Option Update
  | .added value _ | .changed value _ => Update.ofValue? value
  | .keyAdded container key _ => some (.addKey container key)
  | .keyRemoved container key _ => some (.removeKey container key)
  | .removed .. => none

/-- The message that tells the other end of an event. -/
def Event.message? : Event → Option Message
  | .removed id token _ => some (.valueRemoved [id] [token])
  | event =>
    if event.origin = .remote then none
    else event.update?.map fun update => .valueChanged [update]

end ValueTree
