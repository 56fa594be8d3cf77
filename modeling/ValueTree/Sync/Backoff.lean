/-!
# Backoff

How long to wait before the next attempt to connect, in milliseconds. The delay doubles after each
attempt; when it would reach the wrap it starts over.
-/

namespace ValueTree

structure Backoff where
  /-- How many attempts there may be before a connection comes up. -/
  max? : Option Nat := none
  initial : Nat := 250
  wrap : Nat := 8000
deriving DecidableEq, Repr, Inhabited

namespace Backoff

/-- No attempt at all. -/
def never : Backoff := { max? := some 0 }

def isExhausted (b : Backoff) (attempts : Nat) : Bool :=
  match b.max? with
  | some most => most ≤ attempts
  | none => false

/-- The delay that follows another one; right after a connection there is none. -/
def delayAfter (b : Backoff) (previous : Nat) : Nat :=
  if previous = 0 then b.initial
  else if b.wrap ≤ 2 * previous then b.initial
  else 2 * previous

/-- The delays of a series of attempts. -/
def delays (b : Backoff) : (count : Nat) → (previous : Nat) → List Nat
  | 0, _ => []
  | count + 1, previous =>
    let delay := b.delayAfter previous
    delay :: b.delays count delay

end Backoff

end ValueTree
