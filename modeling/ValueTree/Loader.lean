import ValueTree.Files
import ValueTree.Fragment.Json
import ValueTree.Loader.Control

/-!
# The loader

A loader runs fragment files by order of two control values below its root: `action` says what to do
and `file` with what. It reports through a third one, `status`, which only it may write.
-/

namespace ValueTree

/-! ## Errors -/

/-- Why a fragment was not loaded, unloaded or reloaded. -/
inductive SchemaError
  | fileNotFound (path : String)
  | parse (fault : Json.Fault)
  | store (error : StoreError)
  | io (fault : FileFault)
  | unknownAction (code : Int64)
deriving DecidableEq, Repr

namespace SchemaError

def message : SchemaError → String
  | fileNotFound path => "fragment file not found: " ++ path
  | parse fault => "invalid fragment: " ++ fault.message
  | store error => "store error: " ++ error.message
  | io fault => "I/O error: " ++ fault.message
  | unknownAction code => "unknown loader action " ++ toString code.toInt

def isFileNotFound : SchemaError → Bool
  | fileNotFound _ => true
  | _ => false

end SchemaError

/-- The fragment in what was read from a path. -/
def Fragment.ofContent (path : String) : Except FileFault String → Except SchemaError Fragment
  | .error .notFound => .error (.fileNotFound path)
  | .error fault => .error (.io fault)
  | .ok text => (Fragment.parse text).mapError .parse

def Fragment.read (files : FileTree) (path : String) : Except SchemaError Fragment :=
  Fragment.ofContent path (files.readText path)

/-! ## Loaders -/

/-- Where a loader has its control values, and where relative paths start. -/
structure Loader where
  root : Id := ⟨["loader"]⟩
  base : String := "."
deriving DecidableEq, Repr, Inhabited

namespace Loader

def actionId (l : Loader) : Id := ⟨l.root.segments ++ ["action"]⟩

def fileId (l : Loader) : Id := ⟨l.root.segments ++ ["file"]⟩

def statusId (l : Loader) : Id := ⟨l.root.segments ++ ["status"]⟩

def resolve (l : Loader) (path : String) : String := FilePath.join l.base path

/-- An event that makes the loader act: one of its orders was given anew. -/
def isOrder (l : Loader) : Event → Bool
  | .added value _ | .changed value _ => value.id = l.actionId || value.id = l.fileId
  | _ => false

def status (l : Loader) (s : Store) : LoadStatus :=
  (((s.get? l.statusId).bind (·.payload.enum?)).bind fun e => LoadStatus.ofCode? e.value).getD .none

/-- The file to work on; the empty text stands for none. -/
def file (l : Loader) (s : Store) : String :=
  ((s.get? l.fileId).bind (·.payload.text?)).getD ""

def action (l : Loader) (s : Store) : Except SchemaError LoaderAction :=
  match (s.get? l.actionId).bind (·.payload.enum?) with
  | none => .error (.store (.notFound l.actionId))
  | some e =>
    match LoaderAction.ofCode? e.value with
    | some action => .ok action
    | none => .error (.unknownAction e.value)

section

variable {m : Type → Type} [Monad m] [Host m]

/-- Declares a control value that is not there yet. -/
def declareMissing (id : Id) (payload : Payload) (access : Access) :
    ExceptT StoreError m Unit := do
  let store ← (Host.store : m Store)
  if !store.has id then
    let _ ← ExceptT.mk (Host.declare id payload access)

/-- Declares the control values. -/
def attach (l : Loader) : ExceptT StoreError m Unit := do
  declareMissing l.actionId LoaderAction.load.payload .readWrite
  declareMissing l.fileId (.text "") .readWrite
  declareMissing l.statusId LoadStatus.none.payload .readOnly

/-- What an action does with a fragment. -/
def applyAction (a : LoaderAction) (f : Fragment) :
    ExceptT StoreError m Unit :=
  match a with
  | .load => f.load
  | .unload => f.unload
  | .overwrite => f.reload

/-- Runs an action on a fragment file. -/
def run (l : Loader) (files : FileTree) (action : LoaderAction) (path : String) :
    m (Except SchemaError Unit) := do
  match Fragment.read files (l.resolve path) with
  | .error e => pure (.error e)
  | .ok fragment =>
    match ← (applyAction action fragment : ExceptT StoreError m Unit).run with
    | .error e => pure (.error (.store e))
    | .ok _ => pure (.ok ())

def reported : Except SchemaError Unit → LoadStatus
  | .ok _ => .complete
  | .error e => if e.isFileNotFound then .fileNotFound else .failed

/-- Does what the control values say and reports how it went. Without a file it does nothing. -/
def trigger (l : Loader) (files : FileTree) : m LoadStatus := do
  let store ← (Host.store : m Store)
  if l.file store = "" then pure (l.status store)
  else
    let result ← match l.action store with
      | .error e => pure (.error e)
      | .ok action => l.run files action (l.file store)
    let status := reported result
    let _ ← (Host.declare l.statusId status.payload .readOnly : m (Except StoreError SetStatus))
    pure status

end

end Loader

end ValueTree
