import ValueTree.Json.Reader

/-!
# Texts in JSON

What stands between double quotes. A character above the first 65536 is escaped as a surrogate pair,
whose halves have to stand together. In a text that is only passed over they need not.
-/

namespace ValueTree.Json.Reader

/-! ## Escapes -/

def isHigh (unit : Nat) : Bool := 0xD800 ≤ unit && unit < 0xDC00

def isLow (unit : Nat) : Bool := 0xDC00 ≤ unit && unit < 0xE000

def escaped? : Char → Option Char
  | '"' => some '"'
  | '\\' => some '\\'
  | '/' => some '/'
  | 'b' => some '\x08'
  | 'f' => some '\x0c'
  | 'n' => some '\n'
  | 'r' => some '\r'
  | 't' => some '\t'
  | _ => none

/-- Four hexadecimal digits. They are taken whether they are digits or not. -/
def hexUnit : Reader Nat := do
  let digits := (← get).rest.take 4
  modify (Cursor.advanceBy 4)
  if digits.length < 4 then failHere .endInText
  else
    match Hex.number? (digits.map fun b => Char.ofNat b.toNat) with
    | some unit => pure unit
    | none => failHere .wrongEscape

/-- A character that has to come next within a surrogate pair. -/
def pairMark (mark : Char) : Reader Unit := do
  match ← take? with
  | none => failHere .endInText
  | some c => if c = mark then pure () else failHere .brokenPair

/-- The character of one unit or of a surrogate pair. -/
def unicode : Reader Char := do
  let unit ← hexUnit
  if isLow unit then failHere .looseHalf
  else if !isHigh unit then pure (Char.ofNat unit)
  else
    pairMark '\\'
    pairMark 'u'
    let low ← hexUnit
    if !isLow low then failHere .looseHalf
    else pure (Char.ofNat (0x10000 + (unit - 0xD800) * 0x400 + (low - 0xDC00)))

/-- What stands behind a backslash. -/
def escape : Reader Char := do
  match ← take? with
  | none => failHere .endInText
  | some 'u' => unicode
  | some c =>
    match escaped? c with
    | some c => pure c
    | none => failHere .wrongEscape

/-! ## Texts -/

/-- Bytes that stand for themselves. -/
def isPlain (b : UInt8) : Bool := 0x20 ≤ b && b ≠ '"'.toUInt8 && b ≠ '\\'.toUInt8

/-- The bytes up to the closing quote, behind those before them. -/
def textBytes : (fuel : Nat) → (before : List (List UInt8)) → Reader (List UInt8)
  | 0, _ => failHere .endInText
  | fuel + 1, before => do
    let plain ← takeWhile isPlain
    match ← take? with
    | none => failHere .endInText
    | some '"' => pure (plain :: before).reverse.flatten
    | some '\\' => do
      let c ← escape
      textBytes fuel (Utf8.encodeChar c :: plain :: before)
    | some _ => failHere .rawControl

/-- A text; the next byte is its opening quote. -/
def text : Reader String := do
  eat
  let bytes ← textBytes (← bound) []
  pure ((Utf8.toString? bytes).getD "")

/-! ## Passing over texts -/

def skipEscape : Reader Unit := do
  match ← take? with
  | none => failHere .endInText
  | some 'u' => do
    let _ ← hexUnit
  | some c => if (escaped? c).isSome then pure () else failHere .wrongEscape

/-- Passes over the rest of a text. -/
def skipTextRest : (fuel : Nat) → Reader Unit
  | 0 => failHere .endInText
  | fuel + 1 => do
    let _ ← takeWhile isPlain
    match ← peek? with
    | none => failHere .endInText
    | some '"' => eat
    | some '\\' => do
      eat
      skipEscape
      skipTextRest fuel
    | some _ => failHere .rawControl

def skipText : Reader Unit := do
  eat
  skipTextRest (← bound)

end ValueTree.Json.Reader
