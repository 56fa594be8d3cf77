import ValueTree.Store.Change

/-!
# Hosts

A host keeps a store and lets observers hear of each change before anything else happens. What takes
several changes is written for any host: an observer may well act between two of them.
-/

namespace ValueTree

class Host (m : Type → Type) where
  store : m Store
  change {α : Type} (step : Store → Outcome α) : m (Except StoreError α)

namespace Host

variable {m : Type → Type} [Monad m] [Host m]

/-- A change that nobody hears of. -/
def adjust (f : Store → Store) : m Unit := do
  let _ ← change fun s => (f s).unchanged ()
  pure ()

def set (id : Id) (payload : Payload) (origin : Origin) : m (Except StoreError SetStatus) :=
  change fun s => s.set id payload origin

def setValue (value : Value) (origin : Origin) : m (Except StoreError SetStatus) :=
  change fun s => s.setValue value origin

def declare (id : Id) (payload : Payload) (access : Access) :
    m (Except StoreError SetStatus) :=
  change fun s => s.declare id payload access

def remove (id : Id) (origin : Origin) : m (Except StoreError Bool) :=
  change fun s => s.remove id origin

def removeWithToken (id : Id) (token : Token) (origin : Origin) :
    m (Except StoreError Bool) :=
  change fun s => s.removeWithToken id token origin

def addKey (container : Id) (key : String) (origin : Origin) : m (Except StoreError Bool) :=
  change fun s => s.addKey container key origin

def removeKey (container : Id) (key : String) (origin : Origin) : m (Except StoreError Bool) :=
  change fun s => s.removeKey container key origin

/-- Declares a container, and keeps its schema once everybody has heard of it. -/
def declareContainer (schema : Schema) : m (Except StoreError Unit) := do
  match schema.fault? with
  | some fault => pure (.error (.invalidId fault))
  | none =>
    match ← declare schema.id (.container schema.order) .readWrite with
    | .error e => pure (.error e)
    | .ok _ => do
      adjust (·.putSchema schema)
      pure (.ok ())

end Host

/-! ## Changes as data -/

/-- Everything that can be asked to change in a store. -/
inductive Change
  | set (id : Id) (payload : Payload) (origin : Origin)
  | setValue (value : Value) (origin : Origin)
  | declare (id : Id) (payload : Payload) (access : Access)
  | remove (id : Id) (origin : Origin)
  | removeWithToken (id : Id) (token : Token) (origin : Origin)
  | declareContainer (schema : Schema)
  | dropSchema (id : Id)
  | addKey (container : Id) (key : String) (origin : Origin)
  | removeKey (container : Id) (key : String) (origin : Origin)
deriving DecidableEq, Repr, Inhabited

/-- What a change answers when it is not refused. -/
inductive Answer
  | status (status : SetStatus)
  | bool (changed : Bool)
  | declared
  | dropped (schema : Option Schema)
deriving DecidableEq, Repr, Inhabited

section

variable {m : Type → Type} [Monad m] [Host m]

def Change.perform : Change → m (Except StoreError Answer)
  | set id payload origin => do pure ((← Host.set id payload origin).map .status)
  | setValue value origin => do pure ((← Host.setValue value origin).map .status)
  | declare id payload access => do pure ((← Host.declare id payload access).map .status)
  | remove id origin => do pure ((← Host.remove id origin).map .bool)
  | removeWithToken id token origin => do
    pure ((← Host.removeWithToken id token origin).map .bool)
  | declareContainer schema => do
    pure ((← Host.declareContainer schema).map fun _ => .declared)
  | dropSchema id => do
    let schema? := (← (Host.store : m Store)).schema? id
    (Host.adjust (·.dropSchema id) : m Unit)
    pure (.ok (.dropped schema?))
  | addKey container key origin => do pure ((← Host.addKey container key origin).map .bool)
  | removeKey container key origin => do
    pure ((← Host.removeKey container key origin).map .bool)

end

/-! ## Without observers -/

/-- A store with the events so far and nobody to act on them. -/
structure Quiet where
  store : Store := {}
  events : List Event := []
deriving Repr, Inhabited

namespace Quiet

/-- Takes over what a change did. -/
def accept {α : Type} (q : Quiet) (outcome : Outcome α) : Except StoreError α × Quiet :=
  (outcome.result, ⟨outcome.store, q.events ++ outcome.events⟩)

instance : Host (StateM Quiet) where
  store := do pure (← get).store
  change step := fun q => q.accept (step q.store)

/-- Carries out a change, with its answer. -/
def step (q : Quiet) (change : Change) : Except StoreError Answer × Quiet :=
  (change.perform : StateM Quiet (Except StoreError Answer)).run q

/-- Carries out changes one after the other. -/
def after (q : Quiet) (changes : List Change) : Quiet :=
  changes.foldl (fun q change => (q.step change).2) q

end Quiet

end ValueTree
