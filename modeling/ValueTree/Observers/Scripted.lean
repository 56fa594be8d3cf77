import ValueTree.Observers

/-!
# Observers that change their own registry

A scripted observer logs each number it hears. Then it may take another observer off the registry,
add one, and send the next number around before the others have heard of this one.
-/

namespace ValueTree

structure ScriptedObserver where
  name : String
  /-- Whose handle is dropped. -/
  drops : Option String := none
  /-- Under which name a plain observer is added. -/
  adds : Option String := none
  /-- Numbers below this one are followed by the next number. -/
  echoBelow : Option Int := none
deriving Repr, Inhabited

/-- A registry with the handles that are held, by name. Once the registry is dropped nobody hears of
anything, but the handles stay. -/
structure ScriptedRegistry where
  registry : Option (Registry ScriptedObserver) := some {}
  handles : List (String × Nat) := []
  log : List (String × Int) := []
deriving Repr, Inhabited

namespace ScriptedRegistry

/-- Lets go of a handle, which takes the observer off. -/
def drop (s : ScriptedRegistry) (name : String) : ScriptedRegistry :=
  match s.handles.lookup name with
  | none => s
  | some number =>
    { s with
      registry := s.registry.map (·.detach number)
      handles := s.handles.filter (·.1 ≠ name) }

/-- Registers an observer; a handle under the same name is let go of afterwards. -/
def subscribe (s : ScriptedRegistry) (observer : ScriptedObserver) : ScriptedRegistry :=
  match s.registry with
  | none => s
  | some registry =>
    let (number, registry) := registry.subscribe observer
    let s := { s with registry := some registry }.drop observer.name
    { s with handles := s.handles ++ [(observer.name, number)] }

/-- What an observer does with a number, given how numbers are sent around. -/
def hear (notify : Int → ScriptedRegistry → ScriptedRegistry) (number : Int)
    (s : ScriptedRegistry) (observer : ScriptedObserver) : ScriptedRegistry :=
  let s := { s with log := s.log ++ [(observer.name, number)] }
  let s := match observer.drops with
    | some name => s.drop name
    | none => s
  let s := match observer.adds with
    | some name => s.subscribe { name }
    | none => s
  match observer.echoBelow with
  | some bound => if number < bound then notify (number + 1) s else s
  | none => s

def notifyWith : (fuel : Nat) → Int → ScriptedRegistry → ScriptedRegistry
  | 0, _, s => s
  | fuel + 1, number, s =>
    match s.registry with
    | none => s
    | some registry => registry.snapshot.foldl (hear (notifyWith fuel) number) s

/-- The largest bound below which numbers are followed by the next one. -/
def echoBound (s : ScriptedRegistry) (number : Int) : Int :=
  ((s.registry.map Registry.snapshot).getD []).foldl
    (fun bound observer => max bound (observer.echoBelow.getD number)) number

/-- Sends a number around. Every echo is one larger, so the largest bound ends them. -/
def notify (s : ScriptedRegistry) (number : Int) : ScriptedRegistry :=
  notifyWith ((s.echoBound number - number).toNat + 1) number s

end ScriptedRegistry

end ValueTree
