import ValueTree.Json.Number
import ValueTree.Json.Text

/-!
# Simple values in JSON

Each reader says what it expects where something else stands.
-/

namespace ValueTree.Json.Reader

variable {α : Type}

/-! ## Something else -/

/-- What stands there instead of what was expected. -/
def unexpected (expected : String) : Reader α := placed do
  let found : String ← match ← peek? with
    | some 'n' => do
      word ['n', 'u', 'l', 'l']
      pure "null"
    | some 't' => do
      word ['t', 'r', 'u', 'e']
      pure ("boolean " ++ Cause.ticked "true")
    | some 'f' => do
      word ['f', 'a', 'l', 's', 'e']
      pure ("boolean " ++ Cause.ticked "false")
    | some '"' => do pure ("string " ++ Quoted.encode (← text))
    | some '[' => pure "sequence"
    | some '\x7b' => pure "map"
    | some c => if c = '-' || c.isDigit then Number.describe <$> number else failNext .missingValue
    | none => failNext .missingValue
  failUnplaced (.wrongType found expected)

/-! ## Words -/

def bool : Reader Bool := placed do
  match ← skipBlanks with
  | none => failNext .endInValue
  | some 't' => do
    word ['t', 'r', 'u', 'e']
    pure true
  | some 'f' => do
    word ['f', 'a', 'l', 's', 'e']
    pure false
  | some _ => unexpected "a boolean"

/-- Nothing at all. -/
def unit : Reader Unit := placed do
  match ← skipBlanks with
  | none => failNext .endInValue
  | some 'n' => word ['n', 'u', 'l', 'l']
  | some _ => unexpected "unit"

/-- Null, or a value. -/
def option (read : Reader α) : Reader (Option α) := do
  match ← skipBlanks with
  | some 'n' => do
    word ['n', 'u', 'l', 'l']
    pure none
  | _ => some <$> read

/-! ## Texts -/

/-- A text that stands for something. -/
def stringAs (expected : String) (decode : String → Except Cause α) : Reader α := placed do
  match ← skipBlanks with
  | none => failNext .endInValue
  | some '"' => do
    match decode (← text) with
    | .ok a => pure a
    | .error cause => failUnplaced cause
  | some _ => unexpected expected

def string : Reader String := stringAs "a string" .ok

/-! ## Integers -/

/-- An integer of the type with that name. -/
def integerAs (type : String) (ofInt? : Int → Option α) : Reader α := placed do
  match ← skipBlanks with
  | none => failNext .endInValue
  | some c =>
    if c = '-' || c.isDigit then
      match ← number with
      | .whole n =>
        match ofInt? n with
        | some a => pure a
        | none => failUnplaced (.wrongValue (Number.whole n).describe type)
      | other => failUnplaced (.wrongType other.describe type)
    else unexpected type

/-- A number below a limit. -/
def natBelow? (limit : Nat) (n : Int) : Option Nat :=
  if 0 ≤ n && n < limit then some n.toNat else none

def int64 : Reader Int64 := integerAs "i64" fun n =>
  if Int64.minValue.toInt ≤ n && n ≤ Int64.maxValue.toInt then some (Int64.ofInt n) else none

def uint64 : Reader UInt64 := integerAs "u64" fun n => (natBelow? UInt64.size n).map Nat.toUInt64

def uint32 : Reader UInt32 := integerAs "u32" fun n => (natBelow? UInt32.size n).map Nat.toUInt32

def byte : Reader UInt8 := integerAs "u8" fun n => (natBelow? UInt8.size n).map Nat.toUInt8

end ValueTree.Json.Reader
