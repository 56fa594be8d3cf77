import ValueTree.Json.Record
import ValueTree.Payload
import ValueTree.Payload.Address
import ValueTree.Payload.Udid

/-!
# Payloads in JSON

Addresses and identifiers are texts, bytes are numbers. What is written can be read back; reading
also takes the bounds and the enumerators as missing.
-/

namespace ValueTree

def Width.toJson (w : Width) : Json := .text w.name

def Width.fromJson : Json.Reader Width := .choice (Width.all.map fun w => (w.name, w))

/-! ## Kinds -/

namespace Kind

def toJson : Kind → Json
  | int width => .variant "int" width.toJson
  | kind => .text (((names.find? (·.1 = kind)).map (·.2.1)).getD "")

/-- The integer kinds stand behind the first three others. -/
def cases : List (String × Json.Content Kind) :=
  let plain := names.map fun (kind, name, _) => (name, Json.Content.nothing kind)
  plain.take 3 ++ ("int", .value (int <$> Width.fromJson)) :: plain.drop 3

def fromJson : Json.Reader Kind := .variant cases

end Kind

/-! ## Parts -/

namespace Bounded

def toJson {α : Type} [WholeNumber α] (n : Bounded α) : Json :=
  .object [("width", n.width.toJson), ("value", .integer n.number),
    ("min", .integer (WholeNumber.toInt n.lower)), ("max", .integer (WholeNumber.toInt n.upper))]

def members {α : Type} [WholeNumber α] (number : Json.Reader α) : Json.Layout [Width, α, α, α] :=
  .need "width" Width.fromJson (.need "value" number (.may "min" number WholeNumber.zero
    (.may "max" number WholeNumber.zero .nil)))

def fromJson {α : Type} [WholeNumber α] (number : Json.Reader α) : Json.Reader (Bounded α) := do
  let (width, value, lower, upper, _) ← (members number).record "struct Interval"
  pure { width, value, lower, upper }

end Bounded

namespace Enumerator

def toJson (e : Enumerator) : Json :=
  .object [("name", .text e.name), ("value", .integer e.value.toInt)]

def members : Json.Layout [String, Int64] :=
  .need "name" .string (.need "value" .int64 .nil)

def fromJson : Json.Reader Enumerator := do
  let (name, value, _) ← members.record "struct Enumerator"
  pure ⟨name, value⟩

end Enumerator

namespace Enumeration

def toJson (e : Enumeration) : Json :=
  .object [("value", .integer e.value.toInt),
    ("enumerators", .array (e.enumerators.map Enumerator.toJson))]

def members : Json.Layout [Int64, List Enumerator] :=
  .need "value" .int64 (.may "enumerators" (.listOf Enumerator.fromJson) [] .nil)

def fromJson : Json.Reader Enumeration := do
  let (value, enumerators, _) ← members.record "struct EnumData"
  pure ⟨value, enumerators⟩

end Enumeration

def KeyOrder.toJson : KeyOrder → Json
  | .ordered => .text "ordered"
  | .unordered => .text "unordered"

def KeyOrder.fromJson : Json.Reader KeyOrder :=
  .choice [("ordered", .ordered), ("unordered", .unordered)]

def Octets.toJson {n : Nat} (o : Octets n) : Json := .array (o.bytes.map fun b => .nat b.toNat)

def Octets.fromJson {n : Nat} : Json.Reader (Octets n) := do
  let bytes ← Json.Reader.vectorOf .byte n
  if h : bytes.length = n then pure ⟨bytes, h⟩
  else Json.Reader.failUnplaced (.wrongLength bytes.length (toString n))

/-! ## Addresses -/

/-- A text that has to be an address. -/
def addressFromJson {α : Type} (expected message : String) (parse? : String → Option α) :
    Json.Reader α :=
  .stringAs expected fun text =>
    match parse? text with
    | some address => .ok address
    | none => .error (.meaningless message)

def Ipv4.fromJson : Json.Reader Ipv4 :=
  addressFromJson "IPv4 address" "invalid IPv4 address syntax" Ipv4.parse?

def Ipv6.fromJson : Json.Reader Ipv6 :=
  addressFromJson "IPv6 address" "invalid IPv6 address syntax" Ipv6.parse?

def Udid.fromJson : Json.Reader Udid :=
  .stringAs "a UUID string" fun text =>
    match Udid.parse text with
    | .ok identifier => .ok identifier
    | .error fault => .error (.meaningless ("UUID parsing failed: " ++ fault.message))

/-! ## Payloads -/

namespace Payload

/-- A time as seconds and a finer part. -/
def timeJson (finer : String) (sec part : Int64) : Json :=
  .object [("sec", .integer sec.toInt), (finer, .integer part.toInt)]

def timeMembers (finer : String) : Json.Layout [Int64, Int64] :=
  .need "sec" .int64 (.need finer .int64 .nil)

/-- A time, made of its two parts. -/
def timeFromJson (title finer : String) (make : Int64 → Int64 → Payload) : Json.Reader Payload := do
  let (sec, part, _) ← (timeMembers finer).record title
  pure (make sec part)

def toJson : Payload → Json
  | unset => .text "unset"
  | bool b => .variant "bool" (.bool b)
  | text s => .variant "text" (.text s)
  | signed n => .variant "signed" n.toJson
  | unsigned n => .variant "unsigned" n.toJson
  | enum e => .variant "enum" e.toJson
  | ipv4 address => .variant "ipv4" (.ofOption (fun ip => .text (Ipv4.toText ip)) address)
  | ipv6 address => .variant "ipv6" (.ofOption (fun ip => .text (Ipv6.toText ip)) address)
  | eui48 address => .variant "eui48" address.toJson
  | udid identifier => .variant "udid" (.text (Udid.toText identifier))
  | timeVal sec usec => .variant "time_val" (timeJson "usec" sec usec)
  | timeSpec sec nsec => .variant "time_spec" (timeJson "nsec" sec nsec)
  | multi bytes => .variant "multi" (.array (bytes.map fun b => .nat b.toNat))
  | set items => .variant "set" (.texts items)
  | unorderedSet items => .variant "unordered_set" (.texts items)
  | vector items => .variant "vector" (.texts items)
  | struct => .text "struct"
  | container order => .variant "container" order.toJson

def textsFromJson : Json.Reader (List String) := .listOf .string

def jsonCases : List (String × Json.Content Payload) := [
  ("unset", .nothing unset),
  ("bool", .value (bool <$> .bool)),
  ("text", .value (text <$> .string)),
  ("signed", .value (signed <$> Bounded.fromJson .int64)),
  ("unsigned", .value (unsigned <$> Bounded.fromJson .uint64)),
  ("enum", .value (enum <$> Enumeration.fromJson)),
  ("ipv4", .value (ipv4 <$> .option Ipv4.fromJson)),
  ("ipv6", .value (ipv6 <$> .option Ipv6.fromJson)),
  ("eui48", .value (eui48 <$> Octets.fromJson)),
  ("udid", .value (udid <$> Udid.fromJson)),
  ("time_val", .value (timeFromJson "struct TimeVal" "usec" timeVal)),
  ("time_spec", .value (timeFromJson "struct TimeSpec" "nsec" timeSpec)),
  ("multi", .value (multi <$> .listOf .byte)),
  ("set", .value (set <$> textsFromJson)),
  ("unordered_set", .value (unorderedSet <$> textsFromJson)),
  ("vector", .value (vector <$> textsFromJson)),
  ("struct", .nothing struct),
  ("container", .value (container <$> KeyOrder.fromJson))]

def fromJson : Json.Reader Payload := .variant jsonCases

end Payload

end ValueTree
