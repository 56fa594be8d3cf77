import ValueTree.Json
import ValueTree.Json.Fault
import ValueTree.Text.Utf8

/-!
# Reading JSON

A reader takes what it wants from the front of a text and knows where it stands, also after a fault.
The grammar is read without any leniency.
-/

namespace ValueTree.Json

/-- Where a reader stands in a text. -/
structure Cursor where
  rest : List UInt8
  position : Position := {}
  /-- How many brackets may still be opened. -/
  room : Nat := 127
  /-- How many bytes the whole text has. -/
  size : Nat
deriving Repr, Inhabited

namespace Cursor

def ofText (text : String) : Cursor :=
  let rest := Utf8.ofString text
  { rest, size := rest.length }

/-- Goes on by a byte, if there is one. -/
def advance (c : Cursor) : Cursor :=
  match c.rest with
  | [] => c
  | b :: rest => { c with rest, position := c.position.after b }

/-- The position behind the next byte. -/
def nextPosition (c : Cursor) : Position := c.advance.position

/-- Goes on by a count of bytes, or to the end. -/
def advanceBy : Nat → Cursor → Cursor
  | 0, c => c
  | count + 1, c => advanceBy count c.advance

/-- Goes on as long as the bytes have a property, and gives those bytes. -/
def advanceWhile (p : UInt8 → Bool) (c : Cursor) : List UInt8 × Cursor :=
  let found := c.rest.takeWhile p
  (found, { c with
    rest := c.rest.drop found.length
    position := found.foldl Position.after c.position })

end Cursor

abbrev Reader : Type → Type := ExceptT Fault (StateM Cursor)

namespace Reader

variable {α : Type}

/-! ## Faults -/

def failHere (cause : Cause) : Reader α := do throw ⟨cause, some (← get).position⟩

/-- The fault lies in the next byte. -/
def failNext (cause : Cause) : Reader α := do throw ⟨cause, some (← get).nextPosition⟩

def failUnplaced (cause : Cause) : Reader α := throw ⟨cause, none⟩

/-- Gives a fault without a place the place where the reader then stands. -/
def placed (read : Reader α) : Reader α :=
  tryCatch read fun fault => do throw (fault.placedAt (← get).position)

/-- A fault is a result like others. -/
def attempt (read : Reader α) : Reader (Except Fault α) := ExceptT.mk (Except.ok <$> read.run)

/-! ## Bytes -/

/-- A loop that goes on by a byte each time ends before this. -/
def bound : Reader Nat := do pure ((← get).size + 1)

/-- The next byte, as the character with its number. -/
def peek? : Reader (Option Char) := do
  pure ((← get).rest.head?.map fun b => Char.ofNat b.toNat)

def eat : Reader Unit := modify Cursor.advance

def take? : Reader (Option Char) := do
  let c ← peek?
  eat
  pure c

def takeWhile (p : UInt8 → Bool) : Reader (List UInt8) := modifyGet (Cursor.advanceWhile p)

def isBlank (b : UInt8) : Bool :=
  b = ' '.toUInt8 || b = '\t'.toUInt8 || b = '\n'.toUInt8 || b = '\r'.toUInt8

/-- The next byte that is no blank. -/
def skipBlanks : Reader (Option Char) := do
  let _ ← takeWhile isBlank
  peek?

/-- The rest of a fixed word. -/
def word : List Char → Reader Unit
  | [] => pure ()
  | c :: cs => do
    match ← take? with
    | none => failHere .endInValue
    | some d => if d = c then word cs else failHere .wrongWord

/-! ## Brackets -/

/-- Opens a bracket, which is the next byte, and reads one level further down. -/
def deeper (read : Reader α) : Reader α := do
  let c ← get
  if c.room = 0 then failNext .tooDeep
  else
    set { c.advance with room := c.room - 1 }
    let result ← attempt read
    modify fun c => { c with room := c.room + 1 }
    liftExcept result
where
  liftExcept : Except Fault α → Reader α
    | .ok a => pure a
    | .error fault => throw fault

/-- Reads what stands between brackets. A fault in it goes before one at the end, but the end is
looked at in any case. -/
def between (read : Reader α) (close : Reader Unit) : Reader α := do
  let result ← attempt (deeper read)
  let closed ← attempt close
  match result, closed with
  | .error fault, _ => throw fault
  | .ok _, .error fault => throw fault
  | .ok a, .ok () => pure a

/-- Whether another item follows; all but the first have a comma before them. -/
def hasItem (first : Bool) : Reader Bool := do
  match ← skipBlanks with
  | none => failNext .endInArray
  | some ']' => pure false
  | some c =>
    if first then pure true
    else if c ≠ ',' then failNext .missingArrayComma
    else
      eat
      match ← skipBlanks with
      | none => failNext .endInValue
      | some ']' => failNext .trailingComma
      | some _ => pure true

/-- Whether another member follows; all but the first have a comma before them. -/
def hasMember (first : Bool) : Reader Bool := do
  match ← skipBlanks with
  | none => failNext .endInObject
  | some '\x7d' => pure false
  | some c =>
    if first then
      if c = '"' then pure true else failNext .missingKey
    else if c ≠ ',' then failNext .missingObjectComma
    else
      eat
      match ← skipBlanks with
      | none => failNext .endInValue
      | some '"' => pure true
      | some '\x7d' => failNext .trailingComma
      | some _ => failNext .missingKey

def closeArray : Reader Unit := do
  match ← skipBlanks with
  | none => failNext .endInArray
  | some ']' => eat
  | some ',' => do
    eat
    match ← skipBlanks with
    | some ']' => failNext .trailingComma
    | _ => failNext .trailingText
  | some _ => failNext .trailingText

def closeObject : Reader Unit := do
  match ← skipBlanks with
  | none => failNext .endInObject
  | some '\x7d' => eat
  | some ',' => failNext .trailingComma
  | some _ => failNext .trailingText

def colon : Reader Unit := do
  match ← skipBlanks with
  | none => failNext .endInObject
  | some ':' => eat
  | some _ => failNext .missingColon

/-- Nothing but blanks is left. -/
def finish : Reader Unit := do
  match ← skipBlanks with
  | none => pure ()
  | some _ => failNext .trailingText

end Reader

/-- Reads a whole text. -/
def parse {α : Type} (read : Reader α) (text : String) : Except Fault α :=
  ((do
    let a ← read
    Reader.finish
    pure a : Reader α).run (Cursor.ofText text)).1

end ValueTree.Json
