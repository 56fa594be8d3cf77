/-!
# Registries of observers

Observers stand in the order in which they were registered, each under a number of its own that is
never used again. A notification goes to those who are registered when it starts.
-/

namespace ValueTree

structure Registry (κ : Type) where
  next : Nat := 0
  entries : List (Nat × κ) := []
deriving Repr, Inhabited

namespace Registry

variable {κ : Type}

/-- Registers an observer at the end; the number takes it off again. -/
def subscribe (r : Registry κ) (observer : κ) : Nat × Registry κ :=
  (r.next, { next := r.next + 1, entries := r.entries ++ [(r.next, observer)] })

def detach (r : Registry κ) (number : Nat) : Registry κ :=
  { r with entries := r.entries.filter (·.1 ≠ number) }

/-- Whom a notification that starts now goes to. -/
def snapshot (r : Registry κ) : List κ := r.entries.map (·.2)

def size (r : Registry κ) : Nat := r.entries.length

def isEmpty (r : Registry κ) : Bool := r.entries.isEmpty

end Registry

end ValueTree
