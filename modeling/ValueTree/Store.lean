import Std.Data.ExtTreeMap
import Std.Data.ExtTreeSet
import ValueTree.Schema
import ValueTree.Store.Event

/-!
# The store

Values under their ids, each with the keys it has as a container, the schemas of the containers, and
an index of the ids. In the order of the index everything below an id follows it at once.
-/

open Std

namespace ValueTree

/-! ## Errors -/

inductive StoreError
  | invalidId (fault : Id.Fault)
  | notFound (id : Id)
  | notAContainer (id : Id)
  /-- A removal came with the token of another id. -/
  | tokenMismatch (id : Id) (token : Token)
  /-- Two ids have one token. No change comes to this, as an id stands for its token in a store. -/
  | tokenCollision (existing incoming : Id)
  | rejected (id : Id) (reason : SetError)
deriving DecidableEq, Repr

namespace StoreError

def message : StoreError → String
  | invalidId fault => "invalid value id: " ++ fault.message
  | notFound id => "value not found: " ++ id.toText
  | notAContainer id => "not a container: " ++ id.toText
  | tokenMismatch id token => "hash token " ++ token.toText ++ " does not match " ++ id.toText
  | tokenCollision existing incoming =>
    "hash token collision between " ++ existing.toText ++ " and " ++ incoming.toText
  | rejected id reason => "set rejected for " ++ id.toText ++ ": " ++ reason.message

def setError? : StoreError → Option SetError
  | rejected _ reason => some reason
  | _ => none

end StoreError

/-! ## Contents -/

/-- A value, and its keys if it is a container, in the order in which they were added. -/
structure Node where
  value : Value
  keys : List String := []
deriving DecidableEq, Repr, Inhabited

namespace Node

def id (n : Node) : Id := n.value.id

end Node

/-- An id stands for its token: distinct ids are taken to have distinct tokens. -/
structure Store where
  nodes : ExtTreeMap Id Node := ∅
  /-- The ids of the nodes, in their order. -/
  index : ExtTreeSet Id := ∅
  /-- The schemas, each under the id of its container. -/
  templates : ExtTreeMap Id Schema := ∅
deriving DecidableEq, Repr, Inhabited

namespace Store

def empty : Store := {}

/-! ## Questions -/

def node? (s : Store) (id : Id) : Option Node := s.nodes[id]?

def get? (s : Store) (id : Id) : Option Value := (s.node? id).map (·.value)

def has (s : Store) (id : Id) : Bool := (s.node? id).isSome

def kind? (s : Store) (id : Id) : Option Kind := (s.get? id).map (·.kind)

def size (s : Store) : Nat := s.nodes.size

def isEmpty (s : Store) : Bool := s.size = 0

/-- Every value, in the order of the ids. -/
def values (s : Store) : List Value := s.index.toList.filterMap s.get?

def ids (s : Store) : List Id := s.values.map (·.id)

/-- Puts an item into a list in the order of ids: before the first one that comes after it, or in
place of the one at its id. -/
def place {α : Type} (idOf : α → Id) (item : α) : List α → List α
  | [] => [item]
  | head :: rest =>
    match compare (idOf item) (idOf head) with
    | .lt => item :: head :: rest
    | .eq => item :: rest
    | .gt => head :: place idOf item rest

/-- The ids from a place on, as long as they do not leave what lies below it. -/
def scan (place : Id) (ids : List Id) : List Id :=
  (ids.dropWhile (·.before place)).takeWhile (·.startsWith place)

/-- An id, if it is there, and all ids below it. In the order of ids they stand in one piece. -/
def subtree (s : Store) (id : Id) : List Id := scan id s.index.toList

/-- The ids one segment below. -/
def children (s : Store) (id : Id) : List Id :=
  (s.subtree id).filter (·.depth = id.depth + 1)

def hasChildren (s : Store) (id : Id) : Bool := (s.subtree id).any (· ≠ id)

/-- The id itself or its nearest ancestor that is there. -/
def nearest? (s : Store) (id : Id) : Option Id := (id :: id.ancestors).find? s.has

/-- The keys of a container in the order that it asks for. -/
def keys (s : Store) (container : Id) : Except StoreError (List String) :=
  match s.node? container with
  | none => .error (.notFound container)
  | some node =>
    match node.value.payload with
    | .container .ordered => .ok node.keys
    | .container .unordered => .ok (node.keys.mergeSort fun a b => (compare a b).isLE)
    | _ => .error (.notAContainer container)

def schema? (s : Store) (id : Id) : Option Schema := s.templates[id]?

/-- Every schema, in the order of the ids. -/
def schemas (s : Store) : List Schema := s.templates.toList.map (·.2)

end Store

end ValueTree
