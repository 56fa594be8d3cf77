import ValueTree.Json.Number
import ValueTree.Json.Text

/-!
# Passing over values

A value that nobody asked for only has to be one by its form. Its numbers may have any size, and its
brackets may be nested to any depth.
-/

namespace ValueTree.Json.Reader

/-! ## Numbers -/

def skipExponent : Reader Unit := do
  let _ ← takeOneOf ['+', '-']
  if ← isDigitNext then
    let _ ← digits
  else
    eat
    failHere .wrongNumber

def skipFraction : Reader Unit := do
  if ← isDigitNext then
    let _ ← digits
    if (← takeOneOf ['e', 'E']).isSome then skipExponent
  else failNext .wrongNumber

/-- The digits of the whole part. -/
def skipWhole : Reader Unit := do
  if ← isDigitNext then
    if (← takeOneOf ['0']).isSome then
      if ← isDigitNext then failNext .wrongNumber
    else
      let _ ← digits
  else
    eat
    failHere .wrongNumber

def skipNumber : Reader Unit := do
  let _ ← takeOneOf ['-']
  skipWhole
  match ← takeOneOf ['.', 'e', 'E'] with
  | none => pure ()
  | some '.' => skipFraction
  | some _ => skipExponent

/-! ## Brackets -/

inductive Bracket
  | square
  | curly
deriving DecidableEq, Repr, Inhabited

namespace Bracket

def closing : Bracket → Char
  | square => ']'
  | curly => '\x7d'

/-- What is wrong with a text that ends inside. -/
def atEnd : Bracket → Cause
  | square => .endInArray
  | curly => .endInObject

def missingComma : Bracket → Cause
  | square => .missingArrayComma
  | curly => .missingObjectComma

end Bracket

/-- Closes brackets, innermost first, up to where the next value can stand. Behind a value that
takes a comma. -/
def closeBrackets : (behindValue : Bool) → List Bracket → Reader (List Bracket)
  | _, [] => pure []
  | behindValue, bracket :: outer => do
    match ← skipBlanks with
    | none => failNext bracket.atEnd
    | some c =>
      if c = ',' && behindValue then
        eat
        pure (bracket :: outer)
      else if c = bracket.closing then
        eat
        closeBrackets true outer
      else if behindValue then failNext bracket.missingComma
      else pure (bracket :: outer)

/-! ## Values -/

def skipKey : Reader Unit := do
  match ← skipBlanks with
  | none => failNext .endInObject
  | some '"' => skipText
  | some _ => failNext .missingKey

/-- A value without brackets, or the bracket that opens one. -/
def skipSimple : Reader (Option Bracket) := do
  match ← skipBlanks with
  | none => failNext .endInValue
  | some '[' => do
    eat
    pure (some .square)
  | some '\x7b' => do
    eat
    pure (some .curly)
  | some c =>
    match c with
    | 'n' => word ['n', 'u', 'l', 'l']
    | 't' => word ['t', 'r', 'u', 'e']
    | 'f' => word ['f', 'a', 'l', 's', 'e']
    | '"' => skipText
    | c => if c = '-' || c.isDigit then skipNumber else failNext .missingValue
    pure none

/-- Values up to the end of the outermost. -/
def skipWithin : (fuel : Nat) → List Bracket → Reader Unit
  | 0, _ => failNext .endInValue
  | fuel + 1, brackets => do
    let left ← match ← skipSimple with
      | some bracket => closeBrackets false (bracket :: brackets)
      | none => closeBrackets true brackets
    match left with
    | [] => pure ()
    | .square :: _ => skipWithin fuel left
    | .curly :: _ => do
      skipKey
      colon
      skipWithin fuel left

/-- Passes over a value. -/
def skip : Reader Unit := do skipWithin (← bound) []

end ValueTree.Json.Reader
