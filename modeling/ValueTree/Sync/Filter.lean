import ValueTree.Store

/-!
# The filter

Applications share roots such as `logger`, below which each has an entry of its own name. A filter
hides from an application what belongs to the others: with `logger` filtered, an application `A`
sees `logger.A` and below, but not `logger.B`.
-/

namespace ValueTree

structure Filter where
  app : String
  roots : List Id := []
deriving DecidableEq, Repr, Inhabited

namespace Filter

def insert (f : Filter) (root : Id) : Filter :=
  if root ∈ f.roots then f else { f with roots := f.roots ++ [root] }

def erase (f : Filter) (root : Id) : Filter := { f with roots := f.roots.filter (· ≠ root) }

def has (f : Filter) (root : Id) : Bool := root ∈ f.roots

/-- Whether an id ends with the name of the application. -/
def isOwn (f : Filter) (id : Id) : Bool := id.leaf? = some f.app

/-- The nearest proper ancestor that is a filtered root. -/
def root? (f : Filter) (id : Id) : Option Id := id.ancestors.find? (· ∈ f.roots)

/-- An id below a filtered root, in an entry of another name. -/
def isForeign (f : Filter) (id : Id) : Bool :=
  match f.root? id with
  | some root => id.segments[root.depth]? ≠ some f.app
  | none => false

/-- A filter without roots hides nothing. Any other one hides what is foreign, and what has nothing
that exists on its way up. -/
def hides (f : Filter) (s : Store) (id : Id) : Bool :=
  !f.roots.isEmpty && ((s.nearest? id).isNone || f.isForeign id)

end Filter

end ValueTree
