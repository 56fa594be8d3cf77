import ValueTree.Decimal.Shortest
import ValueTree.Json.Reader

/-!
# Numbers in JSON

A number without a point and an exponent that fits 64 bits is whole. Any other is a binary fraction,
and so is a zero with a sign. It is made from as many digits as fit 64 bits; those behind them only
count.
-/

namespace ValueTree.Json

inductive Number
  | whole (n : Int)
  | real (x : Float)
deriving Repr, Inhabited

/-- How a number is called where something else was expected. -/
def Number.describe : Number → String
  | whole n => "integer " ++ Cause.ticked (toString n)
  | real x => "floating point " ++ Cause.ticked (Decimal.textOf x)

namespace Number

/-! ## Digits -/

def isDigit (b : UInt8) : Bool := '0'.toUInt8 ≤ b && b ≤ '9'.toUInt8

def digitValue (b : UInt8) : Nat := b.toNat - 48

/-- Puts digits behind a number as long as it stays below the limit, and gives the digits that are
left. -/
def extend (limit : Nat) : Nat → List UInt8 → Nat × List UInt8
  | n, [] => (n, [])
  | n, b :: rest =>
    let next := n * 10 + digitValue b
    if next < limit then extend limit next rest else (n, b :: rest)

/-! ## Powers of ten -/

/-- The greatest exponent of a power of ten that is a number of 64 bits. -/
def maxExponent : Nat := 308

def powerOfTen (exponent : Nat) : Float := Float.ofScientific 1 false exponent

/-- Nothing if the product is too large. -/
def raised? (x : Float) (exponent : Nat) : Option Float :=
  if exponent ≤ maxExponent then
    let product := x * powerOfTen exponent
    if product.isInf then none else some product
  else if x == 0 then some x
  else none

/-- Divides by a power of ten, which may take more than one division. -/
def lowered (x : Float) (exponent : Nat) : Float :=
  if exponent ≤ maxExponent then x / powerOfTen exponent
  else if x == 0 then x
  else lowered (x / powerOfTen maxExponent) (exponent - maxExponent)
termination_by exponent
decreasing_by simp only [maxExponent] at *; omega

/-- The number `significand · 10 ^ exponent`, unless it is too large. -/
def scaled? (significand : Nat) (exponent : Int) : Option Float :=
  let x := significand.toUInt64.toFloat
  if 0 ≤ exponent then raised? x exponent.toNat else some (lowered x (-exponent).toNat)

/-- The number of a sign and digits that fit 64 bits. -/
def ofWhole (negative : Bool) (significand : Nat) : Number :=
  if !negative then whole significand
  else if 0 < significand && significand ≤ 9223372036854775808 then whole (-(significand : Int))
  else real (-significand.toUInt64.toFloat)

end Number

namespace Reader

open Number

variable {α : Type}

def digits : Reader (List UInt8) := takeWhile isDigit

def isDigitNext : Reader Bool := do pure ((← get).rest.head?.any isDigit)

/-- Takes one of some characters, if one of them is next. -/
def takeOneOf (choices : List Char) : Reader (Option Char) := do
  match ← peek? with
  | some c => if c ∈ choices then take? else pure none
  | none => pure none

/-! ## Parts of a number -/

/-- A number of 32 bits has room for any exponent that makes sense. -/
def exponentLimit : Nat := 2147483648

/-- The value behind the letter of an exponent; nothing if it has too many digits. Digits behind
those are left if they make the number too large. -/
def exponent (isZero : Bool) : Reader (Option Int) := do
  let sign ← takeOneOf ['+', '-']
  if !(← isDigitNext) then
    match ← take? with
    | none => failHere .endInValue
    | some _ => failHere .wrongNumber
  else
    let written := (← get).rest.takeWhile isDigit
    let (n, left) := extend exponentLimit 0 written
    if left.isEmpty || isZero || sign = some '-' then
      let _ ← digits
      pure (if !left.isEmpty then none else some (if sign = some '-' then -(n : Int) else n))
    else
      modify (Cursor.advanceBy (written.length - left.length + 1))
      failHere .hugeNumber

/-- The number, once its digits are known. An exponent may follow. -/
def real (negative : Bool) (significand : Nat) (shift : Int) : Reader Number := do
  let further : Option Int ← match ← takeOneOf ['e', 'E'] with
    | none => pure (some 0)
    | some _ => exponent (significand = 0)
  let size? := match further with
    | none => some 0
    | some further => scaled? significand (shift + further)
  match size? with
  | none => failHere .hugeNumber
  | some size => pure (.real (if negative then -size else size))

/-- The digits behind a point. -/
def fraction (negative : Bool) (significand : Nat) (shift : Int) : Reader Number := do
  if (← peek?).isNone then failNext .endInValue
  else if !(← isDigitNext) then failNext .wrongNumber
  else
    let written ← digits
    let (significand, left) := extend UInt64.size significand written
    real negative significand (shift - (written.length - left.length : Nat))

/-- What is left of a number behind the digits of its whole part. -/
def afterWhole (negative : Bool) (significand shift : Nat) : Reader Number := do
  match ← peek? with
  | some '.' => do
    eat
    fraction negative significand shift
  | c =>
    if shift = 0 && c ≠ some 'e' && c ≠ some 'E' then pure (Number.ofWhole negative significand)
    else real negative significand shift

/-- A number without its sign. Only a zero alone begins with a zero. -/
def unsigned (negative : Bool) : Reader Number := do
  match ← peek? with
  | none => failHere .endInValue
  | some '0' => do
    eat
    if ← isDigitNext then failNext .wrongNumber else afterWhole negative 0 0
  | some _ =>
    if ← isDigitNext then
      let (significand, left) := extend UInt64.size 0 (← digits)
      afterWhole negative significand left.length
    else
      eat
      failHere .wrongNumber

/-- A number; its sign or its first digit is next. -/
def number : Reader Number := do
  let sign ← takeOneOf ['-']
  unsigned sign.isSome

end Reader

end ValueTree.Json
