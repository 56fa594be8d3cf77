import ValueTree.Store.Host

/-!
# Fragments

A fragment declares containers with their templates and plain values. It can be loaded into a store,
unloaded, and reloaded. Before a live store is touched, the fragment has to fit an empty one.
-/

namespace ValueTree

structure ValueDecl where
  id : Id
  access : Access := .readWrite
  payload : Payload := .unset
deriving DecidableEq, Repr, Inhabited

structure ContainerDecl where
  id : Id
  ordered : Bool := true
  template : List ValueDecl := []
deriving DecidableEq, Repr, Inhabited

structure Fragment where
  containers : List ContainerDecl := []
  values : List ValueDecl := []
deriving DecidableEq, Repr, Inhabited

namespace ContainerDecl

def order (d : ContainerDecl) : KeyOrder := if d.ordered then .ordered else .unordered

/-- The schema; each entry has to lie below the instances. -/
def schema (d : ContainerDecl) : Except Id.Fault Schema :=
  d.template.foldlM
    (fun schema entry => schema.withEntry ⟨entry.id, entry.payload, entry.access⟩)
    ⟨d.id, d.order, []⟩

end ContainerDecl

namespace Fragment

/-! ## Declaring -/

section

variable {m : Type → Type} [Monad m] [Host m]

def declareContainer (d : ContainerDecl) : ExceptT StoreError m Unit := do
  match d.schema with
  | .error fault => throw (.invalidId fault)
  | .ok schema => ExceptT.mk (Host.declareContainer schema)

def declareValue (d : ValueDecl) : ExceptT StoreError m Unit := do
  let _ ← ExceptT.mk (Host.declare d.id d.payload d.access)
  pure ()

/-- Declares the containers and then the values, up to the first that is refused. -/
def declareInto (f : Fragment) : ExceptT StoreError m Unit := do
  f.containers.forM declareContainer
  f.values.forM declareValue

end

/-- The fragment alone in a store. -/
def alone (f : Fragment) : Except StoreError Store :=
  let (result, quiet) := (f.declareInto : ExceptT StoreError (StateM Quiet) Unit).run {}
  result.map fun _ => quiet.store

/-- The values that are no containers, parents before children. -/
def plainValues (s : Store) : List Value := s.values.filter (·.kind ≠ .container)

/-! ## Loading -/

section

variable {m : Type → Type} [Monad m] [Host m]

def loadValue (value : Value) : ExceptT StoreError m Unit := do
  let store ← (Host.store : m Store)
  if !store.has value.id then
    let _ ← ExceptT.mk (Host.declare value.id value.payload value.access)

/-- Keeps every value that is there and creates the others; each schema replaces an older one. -/
def load (f : Fragment) : ExceptT StoreError m Unit := do
  let own ← (f.alone : Except StoreError Store)
  own.schemas.forM fun schema => ExceptT.mk (Host.declareContainer schema)
  (plainValues own).forM loadValue

/-! ## Unloading -/

def unloadContainer (schema : Schema) : ExceptT StoreError m Unit := do
  let _ ← ExceptT.mk (Host.remove schema.id .local)
  (Host.adjust (·.dropSchema schema.id) : m Unit)

def unloadValue (value : Value) : ExceptT StoreError m Unit := do
  let store ← (Host.store : m Store)
  if store.has value.id && !store.hasChildren value.id then
    let _ ← ExceptT.mk (Host.remove value.id .local)

/-- Removes the containers with all their instances, then the values that have nothing below them,
children first. -/
def unload (f : Fragment) : ExceptT StoreError m Unit := do
  let own ← (f.alone : Except StoreError Store)
  own.schemas.forM unloadContainer
  (plainValues own).reverse.forM unloadValue

/-! ## Reloading -/

/-- Takes all keys from a container that is there, and declares one that is not. -/
def reloadContainer (schema : Schema) : ExceptT StoreError m Unit := do
  let store ← (Host.store : m Store)
  if store.kind? schema.id ≠ some .container then
    ExceptT.mk (Host.declareContainer schema)
  else
    let keys ← (store.keys schema.id : Except StoreError (List String))
    keys.forM fun key => do
      let _ ← ExceptT.mk (Host.removeKey schema.id key .local)
    let store ← (Host.store : m Store)
    if (store.schema? schema.id).isNone then
      ExceptT.mk (Host.declareContainer schema)

/-- Empties the containers and puts every value back to what the fragment says. -/
def reload (f : Fragment) : ExceptT StoreError m Unit := do
  let own ← (f.alone : Except StoreError Store)
  own.schemas.forM reloadContainer
  (plainValues own).forM fun value => do
    let _ ← ExceptT.mk (Host.declare value.id value.payload value.access)

end

end Fragment

end ValueTree
