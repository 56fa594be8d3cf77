import ValueTree.Cbor.Reader
import ValueTree.Payload

/-!
# Payloads in CBOR

Addresses are arrays of their bytes, a device identifier is a byte string.
-/

namespace ValueTree

open Cbor

def Width.toCbor (w : Width) : List UInt8 := writeText w.name

def Width.fromCbor : Reader Width := variant (Width.all.map fun w => (w.name, pure w))

/-! ## Parts -/

namespace Bounded

def toCbor {α : Type} [WholeNumber α] (n : Bounded α) : List UInt8 :=
  writeRecord [("width", n.width.toCbor), ("value", writeInt n.number),
    ("min", writeInt (WholeNumber.toInt n.lower)), ("max", writeInt (WholeNumber.toInt n.upper))]

def layout {α : Type} (number : Reader α) : Layout [Width, α, α, α] :=
  .field "width" Width.fromCbor (.field "value" number (.field "min" number
    (.field "max" number .nil)))

def fromCbor {α : Type} [WholeNumber α] (number : Reader α) : Reader (Bounded α) := do
  let (width, value, lower, upper, _) ← (layout number).record
  let width ← Reader.ofOption width
  let value ← Reader.ofOption value
  pure { width, value, lower := lower.getD WholeNumber.zero, upper := upper.getD WholeNumber.zero }

end Bounded

namespace Enumerator

def toCbor (e : Enumerator) : List UInt8 :=
  writeRecord [("name", writeText e.name), ("value", writeInt e.value.toInt)]

def layout : Layout [String, Int64] :=
  .field "name" Reader.string (.field "value" Reader.int64 .nil)

def fromCbor : Reader Enumerator := do
  let (name, value, _) ← layout.record
  pure ⟨← Reader.ofOption name, ← Reader.ofOption value⟩

end Enumerator

namespace Enumeration

def toCbor (e : Enumeration) : List UInt8 :=
  writeRecord [("value", writeInt e.value.toInt),
    ("enumerators", writeArray Enumerator.toCbor e.enumerators)]

def layout : Layout [Int64, List Enumerator] :=
  .field "value" Reader.int64 (.field "enumerators" (Reader.listOf Enumerator.fromCbor) .nil)

def fromCbor : Reader Enumeration := do
  let (value, enumerators, _) ← layout.record
  pure ⟨← Reader.ofOption value, enumerators.getD []⟩

end Enumeration

def KeyOrder.toCbor : KeyOrder → List UInt8
  | .ordered => writeText "ordered"
  | .unordered => writeText "unordered"

def KeyOrder.fromCbor : Reader KeyOrder :=
  variant [("ordered", pure .ordered), ("unordered", pure .unordered)]

def writeByte (b : UInt8) : List UInt8 := writeNat b.toNat

def Octets.toCbor {n : Nat} (o : Octets n) : List UInt8 := writeArray writeByte o.bytes

def Octets.fromCbor {n : Nat} : Reader (Octets n) := do
  Reader.ofOption (Octets.ofList? (← Reader.octets n))

/-! ## Payloads -/

namespace Payload

def timeCbor (finer : String) (sec part : Int64) : List UInt8 :=
  writeRecord [("sec", writeInt sec.toInt), (finer, writeInt part.toInt)]

def timeLayout (finer : String) : Layout [Int64, Int64] :=
  .field "sec" Reader.int64 (.field finer Reader.int64 .nil)

def timeFromCbor (finer : String) : Reader (Int64 × Int64) := do
  let (sec, part, _) ← (timeLayout finer).record
  pure (← Reader.ofOption sec, ← Reader.ofOption part)

def toCbor : Payload → List UInt8
  | unset => writeText "unset"
  | bool b => writeVariant "bool" (writeBool b)
  | text s => writeVariant "text" (writeText s)
  | signed n => writeVariant "signed" n.toCbor
  | unsigned n => writeVariant "unsigned" n.toCbor
  | enum e => writeVariant "enum" e.toCbor
  | ipv4 address => writeVariant "ipv4" (writeOption Octets.toCbor address)
  | ipv6 address => writeVariant "ipv6" (writeOption Octets.toCbor address)
  | eui48 address => writeVariant "eui48" address.toCbor
  | udid identifier => writeVariant "udid" (writeBytes identifier.bytes)
  | timeVal sec usec => writeVariant "time_val" (timeCbor "usec" sec usec)
  | timeSpec sec nsec => writeVariant "time_spec" (timeCbor "nsec" sec nsec)
  | multi bytes => writeVariant "multi" (writeArray writeByte bytes)
  | set items => writeVariant "set" (writeArray writeText items)
  | unorderedSet items => writeVariant "unordered_set" (writeArray writeText items)
  | vector items => writeVariant "vector" (writeArray writeText items)
  | struct => writeText "struct"
  | container order => writeVariant "container" order.toCbor

def strings : Reader (List String) := Reader.listOf Reader.string

def cases : List (String × Reader Payload) := [
  ("unset", pure unset),
  ("bool", do pure (bool (← Reader.bool))),
  ("text", do pure (text (← Reader.string))),
  ("signed", do pure (signed (← Bounded.fromCbor Reader.int64))),
  ("unsigned", do pure (unsigned (← Bounded.fromCbor Reader.uint64))),
  ("enum", do pure (enum (← Enumeration.fromCbor))),
  ("ipv4", do pure (ipv4 (← Reader.option Octets.fromCbor))),
  ("ipv6", do pure (ipv6 (← Reader.option Octets.fromCbor))),
  ("eui48", do pure (eui48 (← Octets.fromCbor))),
  ("udid", do pure (udid (← Reader.ofOption (Octets.ofList? (← Reader.shortBytes))))),
  ("time_val", do
    let (sec, usec) ← timeFromCbor "usec"
    pure (timeVal sec usec)),
  ("time_spec", do
    let (sec, nsec) ← timeFromCbor "nsec"
    pure (timeSpec sec nsec)),
  ("multi", do pure (multi (← Reader.list some Reader.byte))),
  ("set", do pure (set (← strings))),
  ("unordered_set", do pure (unorderedSet (← strings))),
  ("vector", do pure (vector (← strings))),
  ("struct", pure struct),
  ("container", do pure (container (← KeyOrder.fromCbor)))]

def fromCbor : Reader Payload := variant cases

end Payload

end ValueTree
