import ValueTree.Sync.Link

/-!
# The socket

What a socket knows of itself. Each attempt, and the connection that comes of it, belongs to the
generation in which the attempt began. A close starts a new generation, and from there on nothing
that belongs to an older one has an effect.
-/

namespace ValueTree

structure Socket where
  connected : Bool := false
  /-- An attempt is under way. -/
  connecting : Bool := false
  generation : Nat := 0
deriving DecidableEq, Repr, Inhabited

namespace Socket

/-- An attempt begins in this generation, unless there is one or a connection already. -/
def begin? (s : Socket) : Option (Nat × Socket) :=
  if s.connected || s.connecting then none
  else some (s.generation, { s with connecting := true })

/-- An attempt of a generation succeeded. -/
def attach (s : Socket) (generation : Nat) : Option LinkEvent × Socket :=
  if s.generation = generation then
    (some .connected, { s with connected := true, connecting := false })
  else (none, s)

/-- An attempt of a generation failed. -/
def failed (s : Socket) (generation : Nat) : Option LinkEvent × Socket :=
  if s.generation = generation then (some .disconnected, { s with connecting := false })
  else (none, s)

/-- The connection of a generation came to its end. -/
def lost (s : Socket) (generation : Nat) : Option LinkEvent × Socket :=
  if s.generation = generation && s.connected then
    (some .disconnected, { s with connected := false })
  else (none, s)

/-- Gives up an attempt or a connection, and tells nobody. -/
def close (s : Socket) : Socket :=
  { connected := false, connecting := false, generation := s.generation + 1 }

/-- Only a connection takes a frame. -/
def accepts (s : Socket) : Except SyncError Unit :=
  if s.connected then .ok () else .error .notConnected

end Socket

end ValueTree
