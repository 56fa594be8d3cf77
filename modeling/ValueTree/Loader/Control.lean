import ValueTree.Payload

/-!
# Loader control values

The action to run and the status it ended with, as enumerations that a store can hold.
-/

namespace ValueTree

inductive LoaderAction
  /-- Brings in what a fragment declares and keeps what is there. -/
  | load
  /-- Takes out what a fragment declares. -/
  | unload
  /-- Brings back what a fragment declares and empties its containers. -/
  | overwrite
deriving DecidableEq, Repr, Inhabited

namespace LoaderAction

def all : List (LoaderAction × String) :=
  [(load, "Load"), (unload, "Unload"), (overwrite, "OverWrite")]

def code (a : LoaderAction) : Int64 := Int64.ofNat (all.findIdx (·.1 = a))

def ofCode? (code : Int64) : Option LoaderAction := (all.find? (·.1.code = code)).map (·.1)

def name (a : LoaderAction) : String := (all.lookup a).getD ""

def payload (a : LoaderAction) : Payload := .enum (.numbered (all.map (·.2)) a.code)

end LoaderAction

inductive LoadStatus
  /-- Nothing has run yet. -/
  | none
  | fileNotFound
  | complete
  | failed
deriving DecidableEq, Repr, Inhabited

namespace LoadStatus

def all : List (LoadStatus × String) :=
  [(none, "None"), (fileNotFound, "FileNotFound"), (complete, "Complete"), (failed, "Failed")]

def code (s : LoadStatus) : Int64 := Int64.ofNat (all.findIdx (·.1 = s))

def ofCode? (code : Int64) : Option LoadStatus := (all.find? (·.1.code = code)).map (·.1)

def name (s : LoadStatus) : String := (all.lookup s).getD ""

def payload (s : LoadStatus) : Payload := .enum (.numbered (all.map (·.2)) s.code)

end LoadStatus

end ValueTree
