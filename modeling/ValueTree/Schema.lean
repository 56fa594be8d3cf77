import ValueTree.Value

/-!
# Container schemas

A schema names a container and gives the values that every instance of it starts with. A template
entry stands for one value: its id has a wildcard where the key of the instance goes, as in
`logger.+.level`.
-/

namespace ValueTree

structure TemplateEntry where
  id : Id
  payload : Payload
  access : Access := .readWrite
deriving DecidableEq, Repr, Inhabited

structure Schema where
  id : Id
  order : KeyOrder
  template : List TemplateEntry := []
deriving DecidableEq, Repr, Inhabited

/-- The value that an entry gives to the instance of a key. -/
def TemplateEntry.instantiate (e : TemplateEntry) (key : String) : Value :=
  { id := e.id.instantiate key, access := e.access, payload := e.payload }

namespace Schema

/-- The root of an instance, with a wildcard for its key. -/
def pattern (s : Schema) : Id := ⟨s.id.segments ++ [Id.wildcard]⟩

/-- An entry has to lie properly below the instances of the container. -/
def entryFault? (s : Schema) (e : TemplateEntry) : Option Id.Fault :=
  if s.pattern.depth < e.id.depth && e.id.startsWith s.pattern then none
  else some (.notBelow e.id s.pattern)

/-- The first entry at fault decides. -/
def fault? (s : Schema) : Option Id.Fault := s.template.findSome? s.entryFault?

def withEntry (s : Schema) (e : TemplateEntry) : Except Id.Fault Schema :=
  match s.entryFault? e with
  | some fault => .error fault
  | none => .ok { s with template := s.template ++ [e] }

/-- The root of the instance of a key. -/
def instanceId (s : Schema) (key : String) : Except Id.Fault Id := s.id.join key

/-- The values below the root of a new instance. The key is taken as it is. -/
def instantiate (s : Schema) (key : String) : List Value := s.template.map (·.instantiate key)

end Schema

end ValueTree
