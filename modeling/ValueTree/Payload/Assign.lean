import ValueTree.Payload

/-!
# Typed assignment

Replacing a payload goes through `Payload.assign`, which says whether the new payload is a change, a
repeat of the current one, or a breach of what the target has declared.

An unset target takes on the first payload that fits its own declaration. After that the kind, the
bounds, the enumerators and the key order belong to the target and stay.
-/

namespace ValueTree

/-- Why a payload was refused. -/
inductive SetError
  | invalidType (expected found : Kind)
  | range (value least greatest : Int)
  | enumerator (value : Int)
  | access
deriving DecidableEq, Repr

def SetError.message : SetError → String
  | .invalidType expected found =>
    "invalid type: expected " ++ expected.describe ++ ", found " ++ found.describe
  | .range value least greatest =>
    "value " ++ toString value ++ " out of range [" ++ toString least ++ ", " ++
      toString greatest ++ "]"
  | .enumerator value => "value " ++ toString value ++ " is not a declared enumerator"
  | .access => "value is read-only"

/-- What an accepted assignment did. -/
inductive SetStatus
  | success
  | sameValue
deriving DecidableEq, Repr, Inhabited

namespace Payload

/-! ## Normal form -/

/-- Puts an item into a sorted list, unless it is there. -/
def insertSorted (item : String) : List String → List String
  | [] => [item]
  | head :: rest =>
    match compare item head with
    | .lt => item :: head :: rest
    | .eq => head :: rest
    | .gt => head :: insertSorted item rest

def sortedSet (items : List String) : List String := items.foldr insertSorted []

/-- Each item once, at its first place. -/
def distinct : List String → List String
  | [] => []
  | item :: rest => item :: (distinct rest).filter (· ≠ item)

/-- A set is sorted without repeats, an unordered set has no repeats. -/
def normalize : Payload → Payload
  | set items => set (sortedSet items)
  | unorderedSet items => unorderedSet (distinct items)
  | p => p

/-! ## Checks -/

def checkRange (value : Int) (range : Int × Int) : Except SetError Unit :=
  if value < range.1 ∨ range.2 < value then .error (.range value range.1 range.2) else .ok ()

/-- An integer has to lie in its own range, and an enumeration with enumerators has to hold one. -/
def validate : Payload → Except SetError Unit
  | signed n => checkRange n.number n.range
  | unsigned n => checkRange n.number n.range
  | enum e =>
    if !e.enumerators.isEmpty && !e.declares e.value then .error (.enumerator e.value.toInt)
    else .ok ()
  | _ => .ok ()

/-- The payload passes its own declaration and is in normal form. -/
def Legal (p : Payload) : Prop := p.validate = .ok () ∧ p.normalize = p

instance (p : Payload) : Decidable p.Legal :=
  match h : p.validate with
  | .ok () => if e : p.normalize = p then isTrue ⟨h, e⟩ else isFalse fun l => e l.2
  | .error _ => isFalse fun l => nomatch h.symm.trans l.1

/-! ## Assignment -/

/-- An integer of the same kind: equal numbers are a repeat whatever the bounds say. -/
def assignNumber {α : Type} [WholeNumber α] [DecidableEq α] (target source : Bounded α) :
    Except SetError (SetStatus × Bounded α) :=
  if target.value = source.value then .ok (.sameValue, target)
  else (checkRange source.number target.range).map fun _ =>
    (.success, { target with value := source.value })

def assignEnum (target source : Enumeration) : Except SetError (SetStatus × Enumeration) :=
  if target.value = source.value then .ok (.sameValue, target)
  else if target.declares source.value then .ok (.success, { target with value := source.value })
  else .error (.enumerator source.value.toInt)

/-- The items of two lists are the same, in any order and number. -/
def sameItems (xs ys : List String) : Bool := xs.all (· ∈ ys) && ys.all (· ∈ xs)

/-- Two collections of one kind say the same. -/
def sameCollection : Payload → Payload → Bool
  | unorderedSet xs, unorderedSet ys => sameItems xs ys
  | p, q => p = q

def assignCollection (current incoming : Payload) : SetStatus × Payload :=
  if sameCollection current incoming.normalize then (.sameValue, current)
  else (.success, incoming.normalize)

def assignPlain (current incoming : Payload) : SetStatus × Payload :=
  if current = incoming then (.sameValue, current) else (.success, incoming)

/-- Two payloads of one kind. Signed and unsigned integers of one width do not mix, and the
structural kinds have nothing to replace. -/
def assignSameKind (current incoming : Payload) : Except SetError (SetStatus × Payload) :=
  match current, incoming with
  | set _, _ | unorderedSet _, _ | vector _, _ => .ok (assignCollection current incoming)
  | signed target, signed source =>
    (assignNumber target source).map fun (status, n) => (status, signed n)
  | unsigned target, unsigned source =>
    (assignNumber target source).map fun (status, n) => (status, unsigned n)
  | signed _, _ | unsigned _, _ => .error (.invalidType current.kind incoming.kind)
  | enum target, enum source =>
    (assignEnum target source).map fun (status, e) => (status, enum e)
  | struct, _ | container _, _ => .ok (.success, current)
  | _, _ => .ok (assignPlain current incoming)

/-- The status and the payload afterwards. -/
def assign (current incoming : Payload) : Except SetError (SetStatus × Payload) :=
  if current.kind = .unset then
    if incoming.kind = .unset then .ok (.sameValue, current)
    else incoming.validate.map fun _ => (.success, incoming.normalize)
  else if current.kind ≠ incoming.kind then
    .error (.invalidType current.kind incoming.kind)
  else assignSameKind current incoming

/-! ## In place -/

/-- Writes into a payload: the answer, and the payload afterwards. -/
def write (current incoming : Payload) : Except SetError SetStatus × Payload :=
  match current.assign incoming with
  | .ok (status, result) => (.ok status, result)
  | .error e => (.error e, current)

/-- The answers to a row of writes, each with the payload after it. -/
def writeAll (current : Payload) : List Payload → List (Except SetError SetStatus × Payload)
  | [] => []
  | incoming :: rest => current.write incoming :: (current.write incoming).2.writeAll rest

end Payload

end ValueTree
