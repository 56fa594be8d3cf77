import ValueTree.Sync.Backoff

/-!
# The reconnector

Once a connection is lost, one timer at a time waits for the next attempt. Each timer that fires
arms the next, until a connection comes up or the attempts are used up.
-/

namespace ValueTree

structure Reconnector where
  backoff : Backoff := {}
  /-- The last delay; zero right after a connection came up. -/
  timeout : Nat := 0
  attempts : Nat := 0
  /-- The number of the timer that waits. -/
  timer : Option Nat := none
deriving DecidableEq, Repr, Inhabited

namespace Reconnector

/-- The delay to wait, unless a timer waits already or the attempts are used up. -/
def delay? (r : Reconnector) : Option Nat :=
  if r.timer.isSome || r.backoff.isExhausted r.attempts then none
  else some (r.backoff.delayAfter r.timeout)

/-- A timer waits for the next attempt. -/
def waiting (r : Reconnector) (number delay : Nat) : Reconnector :=
  { r with timer := some number, timeout := delay, attempts := r.attempts + 1 }

/-- The timer fired. -/
def fired (r : Reconnector) : Reconnector := { r with timer := none }

/-- A connection came up. -/
def connected (r : Reconnector) : Reconnector :=
  { r with timer := none, timeout := 0, attempts := 0 }

/-- No attempt any more, for good. -/
def stopped (r : Reconnector) : Reconnector :=
  { r with timer := none, backoff := { r.backoff with max? := some 0 } }

end Reconnector

end ValueTree
