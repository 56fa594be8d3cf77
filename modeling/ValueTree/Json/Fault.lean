import ValueTree.Text.Quoted

/-!
# Faults in JSON texts

Why a text is not read, and where. A fault of the grammar has a place from the start. A fault of the
meaning gets the place where the reader of the whole thing around it stands.
-/

namespace ValueTree.Json

/-- Why a text is not read. -/
inductive Cause
  | endInArray
  | endInObject
  | endInText
  | endInValue
  | missingColon
  | missingArrayComma
  | missingObjectComma
  | wrongWord
  | missingValue
  | wrongEscape
  | wrongNumber
  | hugeNumber
  | rawControl
  | missingKey
  /-- The second half of a surrogate pair does not stand where it has to. -/
  | looseHalf
  /-- The first half of a surrogate pair stands alone. -/
  | brokenPair
  | trailingComma
  | trailingText
  | tooDeep
  | wrongType (found expected : String)
  | wrongValue (found expected : String)
  | wrongLength (found : Nat) (expected : String)
  | unknownVariant (name : String) (known : List String)
  | missingField (name : String)
  | repeatedField (name : String)
  /-- The text stands for nothing of its kind. -/
  | meaningless (message : String)
deriving DecidableEq, Repr, Inhabited

namespace Cause

def ticked (name : String) : String := "`" ++ name ++ "`"

/-- What could have stood there. -/
def choice : List String → String
  | [a, b] => "expected " ++ ticked a ++ " or " ++ ticked b
  | [a] => "expected " ++ ticked a
  | names => "expected one of " ++ String.intercalate ", " (names.map ticked)

def message : Cause → String
  | endInArray => "EOF while parsing a list"
  | endInObject => "EOF while parsing an object"
  | endInText => "EOF while parsing a string"
  | endInValue => "EOF while parsing a value"
  | missingColon => "expected `:`"
  | missingArrayComma => "expected `,` or `]`"
  | missingObjectComma => "expected `,` or `\x7d`"
  | wrongWord => "expected ident"
  | missingValue => "expected value"
  | wrongEscape => "invalid escape"
  | wrongNumber => "invalid number"
  | hugeNumber => "number out of range"
  | rawControl => "control character (\\u0000-\\u001F) found while parsing a string"
  | missingKey => "key must be a string"
  | looseHalf => "lone leading surrogate in hex escape"
  | brokenPair => "unexpected end of hex escape"
  | trailingComma => "trailing comma"
  | trailingText => "trailing characters"
  | tooDeep => "recursion limit exceeded"
  | wrongType found expected => "invalid type: " ++ found ++ ", expected " ++ expected
  | wrongValue found expected => "invalid value: " ++ found ++ ", expected " ++ expected
  | wrongLength found expected =>
    "invalid length " ++ toString found ++ ", expected " ++ expected
  | unknownVariant name known => "unknown variant " ++ ticked name ++ ", " ++ choice known
  | missingField name => "missing field " ++ ticked name
  | repeatedField name => "duplicate field " ++ ticked name
  | meaningless message => message

end Cause

/-- Lines count from one, and the bytes before the place on its line from zero. -/
structure Position where
  line : Nat := 1
  column : Nat := 0
deriving DecidableEq, Repr, Inhabited

/-- The position behind a byte. -/
def Position.after (p : Position) (b : UInt8) : Position :=
  if b = '\n'.toUInt8 then { line := p.line + 1, column := 0 }
  else { p with column := p.column + 1 }

structure Fault where
  cause : Cause
  /-- Nothing as long as no place was given. -/
  place : Option Position
deriving DecidableEq, Repr, Inhabited

namespace Fault

/-- Gives a place to a fault without one. -/
def placedAt (f : Fault) (p : Position) : Fault := { f with place := f.place.or (some p) }

def message (f : Fault) : String :=
  match f.place with
  | none => f.cause.message
  | some place => f.cause.message ++ " at line " ++ toString place.line ++ " column " ++
      toString place.column

/-- All parts; a missing place is zero. -/
def inspect (f : Fault) : String :=
  let place := f.place.getD { line := 0, column := 0 }
  "Error(" ++ Quoted.encode f.cause.message ++ ", line: " ++ toString place.line ++
    ", column: " ++ toString place.column ++ ")"

end Fault

end ValueTree.Json
