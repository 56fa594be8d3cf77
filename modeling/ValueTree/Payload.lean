import ValueTree.Payload.Width
import ValueTree.Payload.Octets

/-!
# Payloads

What a value holds: one of eighteen kinds of data. A kind is the tag of a payload, and an integer's
width is part of its kind.
-/

namespace ValueTree

/-! ## Enumerations -/

structure Enumerator where
  name : String
  value : Int64
deriving DecidableEq, Repr, Inhabited

structure Enumeration where
  value : Int64
  enumerators : List Enumerator
deriving DecidableEq, Repr, Inhabited

namespace Enumeration

def declares (e : Enumeration) (value : Int64) : Bool := e.enumerators.any (·.value = value)

/-- The name of the current value; of several the first. -/
def name? (e : Enumeration) : Option String :=
  (e.enumerators.find? (·.value = e.value)).map (·.name)

/-- The value of a name; of several the first. -/
def valueOf? (e : Enumeration) (name : String) : Option Int64 :=
  (e.enumerators.find? (·.name = name)).map (·.value)

/-- Distinct names with the values 0, 1, 2 and so on, one of them current. -/
def numbered (names : List String) (value : Int64) : Enumeration :=
  ⟨value, names.zipIdx.map fun (name, n) => ⟨name, Int64.ofNat n⟩⟩

end Enumeration

/-! ## Order of container keys -/

inductive KeyOrder
  /-- Keys stand in the order in which they were added. -/
  | ordered
  /-- Keys are reported sorted. -/
  | unordered
deriving DecidableEq, Repr, Inhabited

/-! ## Kinds -/

inductive Kind
  | unset | bool | text | int (width : Width) | enum | ipv4 | ipv6 | eui48 | udid | timeVal
  | timeSpec | multi | set | unorderedSet | vector | struct | container
deriving DecidableEq, Repr, Inhabited

namespace Kind

/-- Structural kinds hold children and have no payload to compare. -/
def isStructural : Kind → Bool
  | struct | container => true
  | _ => false

/-- The kinds with their names on the wire and in messages; the integer kinds stand apart. -/
def names : List (Kind × String × String) := [
  (unset, "unset", "Unset"), (bool, "bool", "Bool"), (text, "text", "Text"), (enum, "enum", "Enum"),
  (ipv4, "ipv4", "Ipv4"), (ipv6, "ipv6", "Ipv6"), (eui48, "eui48", "Eui48"), (udid, "udid", "Udid"),
  (timeVal, "time_val", "TimeVal"), (timeSpec, "time_spec", "TimeSpec"), (multi, "multi", "Multi"),
  (set, "set", "Set"), (unorderedSet, "unordered_set", "UnorderedSet"),
  (vector, "vector", "Vector"), (struct, "struct", "Struct"), (container, "container", "Container")]

/-- The short name: an integer kind is named by its width alone. -/
def label : Kind → String
  | int width => width.label
  | kind => ((names.find? (·.1 = kind)).map (·.2.2)).getD ""

/-- The name in error messages, which shows that an integer kind is one. -/
def describe : Kind → String
  | int width => "Int(" ++ width.label ++ ")"
  | kind => kind.label

end Kind

/-! ## Payloads -/

inductive Payload
  /-- No type is bound yet; the first write binds one. -/
  | unset
  | bool (b : Bool)
  | text (s : String)
  | signed (n : Bounded Int64)
  | unsigned (n : Bounded UInt64)
  | enum (e : Enumeration)
  | ipv4 (address : Option Ipv4)
  | ipv6 (address : Option Ipv6)
  | eui48 (address : Eui48)
  | udid (identifier : Udid)
  | timeVal (sec usec : Int64)
  | timeSpec (sec nsec : Int64)
  | multi (bytes : List UInt8)
  /-- Sorted strings without repeats. -/
  | set (items : List String)
  /-- Strings without repeats, whose order does not matter. -/
  | unorderedSet (items : List String)
  | vector (items : List String)
  | struct
  | container (order : KeyOrder)
deriving DecidableEq, Repr, Inhabited

namespace Payload

def kind : Payload → Kind
  | unset => .unset
  | bool _ => .bool
  | text _ => .text
  | signed n => .int n.width
  | unsigned n => .int n.width
  | enum _ => .enum
  | ipv4 _ => .ipv4
  | ipv6 _ => .ipv6
  | eui48 _ => .eui48
  | udid _ => .udid
  | timeVal .. => .timeVal
  | timeSpec .. => .timeSpec
  | multi _ => .multi
  | set _ => .set
  | unorderedSet _ => .unorderedSet
  | vector _ => .vector
  | struct => .struct
  | container _ => .container

def text? : Payload → Option String
  | text s => some s
  | _ => none

def bool? : Payload → Option Bool
  | bool b => some b
  | _ => none

def enum? : Payload → Option Enumeration
  | enum e => some e
  | _ => none

def integer? : Payload → Option Int
  | signed n => some n.number
  | unsigned n => some n.number
  | _ => none

/-- Numbers, enumerations, times and hardware addresses always say something, zero included.
Texts, addresses and collections do when they are not empty, identifiers when they are not zero. -/
def hasData : Payload → Bool
  | signed _ | unsigned _ | enum _ | bool _ | timeVal .. | timeSpec .. | eui48 _ => true
  | text s => s ≠ ""
  | ipv4 address => address.isSome
  | ipv6 address => address.isSome
  | udid identifier => !identifier.isZero
  | multi bytes => !bytes.isEmpty
  | set items | unorderedSet items | vector items => !items.isEmpty
  | struct | container _ | unset => false

end Payload

end ValueTree
