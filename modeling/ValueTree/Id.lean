/-!
# Ids

The name of a value: a path of segments, written with a dot between them. The root has no segment.
A `+` segment is a wildcard and stands for the key of a container instance.
-/

namespace ValueTree

structure Id where
  segments : List String
deriving DecidableEq, Inhabited, Repr

namespace Id

def separator : Char := '.'

def wildcard : String := "+"

def root : Id := ⟨[]⟩

/-! ## Text -/

def joinParts : List (List Char) → List Char
  | [] => []
  | [part] => part
  | part :: next :: rest => part ++ separator :: joinParts (next :: rest)

/-- The segments with a dot between them. -/
def toText (i : Id) : String := String.ofList (joinParts (i.segments.map String.toList))

/-- The parts between the dots; there is one more of them than there are dots. -/
def splitParts : List Char → List (List Char)
  | [] => [[]]
  | c :: cs =>
    if c = separator then [] :: splitParts cs
    else
      match splitParts cs with
      | [] => [[c]]
      | part :: rest => (c :: part) :: rest

/-! ## Faults -/

/-- Why something is no id, or not an id that fits its place. -/
inductive Fault
  | emptySegment
  | separatorIn (segment : String)
  /-- A template entry has to lie below the instances of its container. -/
  | notBelow (entry pattern : Id)
  /-- A fault that was found elsewhere and described there. -/
  | described (reason : String)
deriving DecidableEq, Repr

def Fault.message : Fault → String
  | .emptySegment => "empty segment"
  | .separatorIn segment => "segment '" ++ segment ++ "' contains separator"
  | .notBelow entry pattern =>
    "template entry " ++ entry.toText ++ " is not below " ++ pattern.toText
  | .described reason => reason

def segmentFault? (segment : String) : Option Fault :=
  if segment = "" then some .emptySegment
  else if separator ∈ segment.toList then some (.separatorIn segment)
  else none

/-- No segment is empty or holds the separator. -/
def WellFormed (i : Id) : Prop := ∀ s ∈ i.segments, segmentFault? s = none

instance (i : Id) : Decidable i.WellFormed :=
  inferInstanceAs (Decidable (∀ s ∈ i.segments, segmentFault? s = none))

/-! ## Making ids -/

/-- The first segment at fault decides. -/
def ofSegments (segments : List String) : Except Fault Id :=
  match segments.findSome? segmentFault? with
  | some fault => .error fault
  | none => .ok ⟨segments⟩

def parse (text : String) : Except Fault Id :=
  if text = "" then .ok root
  else ofSegments ((splitParts text.toList).map String.ofList)

/-- The id one segment further down. -/
def join (i : Id) (segment : String) : Except Fault Id :=
  match segmentFault? segment with
  | some fault => .error fault
  | none => .ok ⟨i.segments ++ [segment]⟩

def concat (i j : Id) : Id := ⟨i.segments ++ j.segments⟩

def parent? (i : Id) : Option Id :=
  if i.segments.isEmpty then none else some ⟨i.segments.dropLast⟩

/-- Every wildcard becomes the key, which is taken as it is. -/
def instantiate (i : Id) (key : String) : Id :=
  ⟨i.segments.map fun s => if s = wildcard then key else s⟩

/-! ## Questions -/

def depth (i : Id) : Nat := i.segments.length

def isRoot (i : Id) : Bool := i.segments.isEmpty

def leaf? (i : Id) : Option String := i.segments.getLast?

/-- The id is `p` or lies below it. -/
def startsWith (i p : Id) : Bool := p.segments.isPrefixOf i.segments

/-- What is left of the id below `p`. -/
def relativeTo? (i p : Id) : Option Id :=
  if i.startsWith p then some ⟨i.segments.drop p.depth⟩ else none

def isWildcard (i : Id) : Bool := i.segments.any (· = wildcard)

/-- A wildcard of the pattern stands for any one segment. -/
def segmentsMatch : List String → List String → Bool
  | [], [] => true
  | p :: ps, s :: ss => (p = wildcard || p = s) && segmentsMatch ps ss
  | _, _ => false

def matchesId (pattern concrete : Id) : Bool := segmentsMatch pattern.segments concrete.segments

/-- The proper ancestors, nearest first. -/
def ancestors (i : Id) : List Id :=
  (List.range i.depth).reverse.map fun n => ⟨i.segments.take n⟩

/-! ## Order -/

/-- Segment by segment, and each segment by its code points, so that an id comes right before
everything below it. -/
instance : Ord Id := ⟨fun i j => compare i.segments j.segments⟩

instance : Std.TransOrd Id where
  eq_swap {i j} := Std.OrientedOrd.eq_swap (a := i.segments) (b := j.segments)
  isLE_trans {i j k} :=
    Std.TransOrd.isLE_trans (a := i.segments) (b := j.segments) (c := k.segments)

instance : Std.LawfulEqOrd Id where
  compare_self {i} := Std.ReflOrd.compare_self (a := i.segments)
  eq_of_compare {i j} h :=
    congrArg Id.mk (Std.LawfulEqOrd.eq_of_compare (a := i.segments) (b := j.segments) h)

def before (i j : Id) : Bool := (compare i j).isLT

end Id

end ValueTree
