import ValueTree.Store

/-!
# Changes of a store

Each change is one step: it gives an answer, the store afterwards, and the events in the order in
which observers hear of them. A change that fails says nothing to observers.
-/

namespace ValueTree

/-- What a change did. -/
structure Outcome (α : Type) where
  result : Except StoreError α
  store : Store
  events : List Event := []
deriving Repr

namespace Store

variable {α : Type}

def failed (s : Store) (e : StoreError) : Outcome α := { result := .error e, store := s }

/-- An answer without a change. -/
def unchanged (s : Store) (answer : α) : Outcome α := { result := .ok answer, store := s }

/-! ## Putting nodes and schemas in place -/

/-- Changes the node of an id that is there. -/
def put (s : Store) (id : Id) (node : Node) : Store := { s with nodes := s.nodes.insert id node }

/-- Takes in a new value. -/
def add (s : Store) (value : Value) : Store :=
  { s with
    nodes := s.nodes.insert value.id { value }
    index := s.index.insert value.id }

def putSchema (s : Store) (schema : Schema) : Store :=
  { s with templates := s.templates.insert schema.id schema }

/-- Takes away an id, and its schema if there is a value. -/
def erase (s : Store) (id : Id) : Store :=
  { nodes := s.nodes.erase id
    index := s.index.erase id
    templates := if s.has id then s.templates.erase id else s.templates }

def eraseAll (s : Store) (ids : List Id) : Store := ids.foldl erase s

/-- The parent forgets the last segment of the id as one of its keys. -/
def unlink (s : Store) (id : Id) : Store :=
  match id.parent?, id.leaf? with
  | some parent, some leaf =>
    match s.node? parent with
    | some node => s.put parent { node with keys := node.keys.filter (· ≠ leaf) }
    | none => s
  | _, _ => s

/-! ## Writing values -/

/-- The first value under an id. Its payload has to fit its own declaration. -/
def create (s : Store) (id : Id) (payload : Payload) (access : Access) (origin : Origin) :
    Outcome SetStatus :=
  match Payload.unset.assign payload with
  | .error e => s.failed (.rejected id e)
  | .ok (_, payload) =>
    let value : Value := { id, access, payload }
    { result := .ok .success
      store := s.add value
      events := [.added value origin] }

/-- Assigns to the value of a node. -/
def assignAt (s : Store) (id : Id) (node : Node) (payload : Payload) (origin : Origin) :
    Outcome SetStatus :=
  match node.value.assign payload with
  | .error e => s.failed (.rejected id e)
  | .ok (.sameValue, _) => s.unchanged .sameValue
  | .ok (.success, value) =>
    { result := .ok .success
      store := s.put id { node with value }
      events := [.changed value origin] }

/-- Writes as the owner: a value that is there takes on the access mode, whatever becomes of the
payload. -/
def declare (s : Store) (id : Id) (payload : Payload) (access : Access) : Outcome SetStatus :=
  match s.node? id with
  | none => s.create id payload access .local
  | some node =>
    let node := { node with value := { node.value with access } }
    (s.put id node).assignAt id node payload .local

/-- Writes as a user: a local write to a read-only value is refused. The access mode counts only
for a new value. -/
def write (s : Store) (id : Id) (payload : Payload) (access : Access) (origin : Origin) :
    Outcome SetStatus :=
  match s.node? id with
  | none => s.create id payload access origin
  | some node =>
    if origin = .local && node.value.isReadOnly then s.failed (.rejected id .access)
    else s.assignAt id node payload origin

def set (s : Store) (id : Id) (payload : Payload) (origin : Origin) : Outcome SetStatus :=
  s.write id payload .readWrite origin

def setValue (s : Store) (value : Value) (origin : Origin) : Outcome SetStatus :=
  s.write value.id value.payload value.access origin

/-! ## Removing values -/

/-- Removes a value and everything below it, deepest first. -/
def remove (s : Store) (id : Id) (origin : Origin) : Outcome Bool :=
  if s.has id then
    let doomed := (s.subtree id).reverse
    { result := .ok true
      store := (s.unlink id).eraseAll doomed
      events := (doomed.filterMap s.get?).map fun value =>
        .removed value.id value.id.token origin }
  else s.unchanged false

/-- Removes only if the token is the one of the id. -/
def removeWithToken (s : Store) (id : Id) (token : Token) (origin : Origin) : Outcome Bool :=
  if id.token = token then s.remove id origin else s.failed (.tokenMismatch id token)

/-! ## Containers -/

/-- Forgets the schema of a container; its value stays. -/
def dropSchema (s : Store) (id : Id) : Store :=
  { s with templates := s.templates.erase id }

/-- Puts values in place that are not there yet; they are taken as they are. -/
def fill (s : Store) (origin : Origin) : List Value → Store × List Event
  | [] => (s, [])
  | value :: rest =>
    if s.has value.id then s.fill origin rest
    else
      let (filled, events) := (s.add value).fill origin rest
      (filled, .added value origin :: events)

/-- The values that a new instance starts with: its root, then what the template says. -/
def instanceValues (s : Store) (container : Id) (key : String) (root : Id) : List Value :=
  { id := root, payload := .struct } ::
    ((s.schema? container).map (·.instantiate key)).getD []

/-- Adds a key to the node of a container and fills its instance. -/
def addKeyAt (s : Store) (container : Id) (node : Node) (key : String) (root : Id)
    (origin : Origin) : Outcome Bool :=
  if node.value.kind ≠ .container then s.failed (.notAContainer container)
  else if key ∈ node.keys then s.unchanged false
  else
    let linked := s.put container { node with keys := node.keys ++ [key] }
    let (filled, events) := linked.fill origin (s.instanceValues container key root)
    { result := .ok true
      store := filled
      events := .keyAdded container key origin :: events }

/-- Adds a key to a container. For the other end of a connection a container that is not there
comes into being, with ordered keys. -/
def addKey (s : Store) (container : Id) (key : String) (origin : Origin) : Outcome Bool :=
  match container.join key with
  | .error fault => s.failed (.invalidId fault)
  | .ok root =>
    match s.node? container, origin with
    | some node, _ => s.addKeyAt container node key root origin
    | none, .local => s.failed (.notFound container)
    | none, .remote =>
      let value : Value := { id := container, payload := .container .ordered }
      let added := (s.add value).addKeyAt container { value } key root origin
      { added with events := .added value origin :: added.events }

/-- Takes a key away together with its instance. -/
def removeKeyAt (s : Store) (container : Id) (node : Node) (key : String) (root : Id)
    (origin : Origin) : Outcome Bool :=
  if node.value.kind ≠ .container then s.failed (.notAContainer container)
  else if key ∉ node.keys then s.unchanged false
  else
    { result := .ok true
      store :=
        (s.put container { node with keys := node.keys.erase key }).eraseAll (s.subtree root)
      events := [.keyRemoved container key origin] }

def removeKey (s : Store) (container : Id) (key : String) (origin : Origin) : Outcome Bool :=
  match container.join key with
  | .error fault => s.failed (.invalidId fault)
  | .ok root =>
    match s.node? container with
    | none => s.failed (.notFound container)
    | some node => s.removeKeyAt container node key root origin

end Store

end ValueTree
