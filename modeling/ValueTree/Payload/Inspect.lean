import ValueTree.Payload
import ValueTree.Payload.Address
import ValueTree.Payload.Udid
import ValueTree.Text.Quoted

/-!
# Payloads in full

A line that shows everything a payload holds, with the names of all parts.
-/

namespace ValueTree

namespace Inspect

/-- A name with its content in brackets. -/
def wrapped (name content : String) : String := name ++ "(" ++ content ++ ")"

def list (items : List String) : String := "[" ++ String.intercalate ", " items ++ "]"

/-- A name with its fields, which have names too. -/
def fields (name : String) (members : List (String × String)) : String :=
  let shown := members.map fun (field, content) => field ++ ": " ++ content
  name ++ " \x7b " ++ String.intercalate ", " shown ++ " \x7d"

def texts (items : List String) : String := list (items.map Quoted.encode)

def bytes (items : List UInt8) : String := list (items.map fun b => toString b.toNat)

/-- An address that may be missing. -/
def optional {α : Type} (show' : α → String) : Option α → String
  | some a => wrapped "Some" (show' a)
  | none => "None"

end Inspect

open Inspect

/-- The width, the number, and its bounds. -/
def Bounded.inspect {α : Type} [WholeNumber α] (n : Bounded α) : String :=
  let number (k : α) : String := toString (WholeNumber.toInt k)
  fields "Interval" [("width", n.width.label), ("value", number n.value), ("min", number n.lower),
    ("max", number n.upper)]

def Enumerator.inspect (e : Enumerator) : String :=
  fields "Enumerator" [("name", Quoted.encode e.name), ("value", toString e.value.toInt)]

def Enumeration.inspect (e : Enumeration) : String :=
  fields "EnumData" [("value", toString e.value.toInt),
    ("enumerators", list (e.enumerators.map Enumerator.inspect))]

def KeyOrder.inspect : KeyOrder → String
  | .ordered => "Ordered"
  | .unordered => "Unordered"

namespace Payload

/-- What stands in brackets after the name of the kind, if anything does. -/
def contents? : Payload → Option String
  | bool b => some (toString b)
  | text s => some (Quoted.encode s)
  | signed n => some n.inspect
  | unsigned n => some n.inspect
  | enum e => some e.inspect
  | ipv4 address => some (optional Ipv4.toText address)
  | ipv6 address => some (optional Ipv6.toText address)
  | eui48 address => some (Inspect.bytes address.bytes)
  | udid identifier => some (Udid.toText identifier)
  | timeVal sec usec =>
    some (fields "TimeVal" [("sec", toString sec.toInt), ("usec", toString usec.toInt)])
  | timeSpec sec nsec =>
    some (fields "TimeSpec" [("sec", toString sec.toInt), ("nsec", toString nsec.toInt)])
  | multi items => some (Inspect.bytes items)
  | set items | unorderedSet items | vector items => some (Inspect.texts items)
  | container order => some order.inspect
  | unset | struct => none

/-- The name of the kind; numbers show only whether they have a sign. -/
def inspectName : Payload → String
  | signed _ => "Signed"
  | unsigned _ => "Unsigned"
  | p => p.kind.label

def inspect (p : Payload) : String :=
  match p.contents? with
  | some contents => wrapped p.inspectName contents
  | none => p.inspectName

end Payload

end ValueTree
