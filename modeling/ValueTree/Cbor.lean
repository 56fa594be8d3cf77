import ValueTree.Text.Utf8

/-!
# CBOR heads

Every item starts with a head: a major kind and a number. Writing takes the shortest form of the
number; reading takes every form.
-/

namespace ValueTree.Cbor

/-- A length or count of `none` says that the item goes on until a stop. -/
inductive Head
  | unsigned (n : Nat)
  /-- The number `-1 - n`. -/
  | negative (n : Nat)
  | bytes (length : Option Nat)
  | text (length : Option Nat)
  | array (count : Option Nat)
  | map (count : Option Nat)
  | tag (n : Nat)
  | simple (n : Nat)
  | float
  | stop
deriving DecidableEq, Repr, Inhabited

/-! ## Numbers -/

/-- The last `count` bytes of a number, most significant first. -/
def bigEndian : (count : Nat) → Nat → List UInt8
  | 0, _ => []
  | count + 1, n => bigEndian count (n / 256) ++ [n.toUInt8]

def ofBigEndian (bytes : List UInt8) : Nat := bytes.foldl (fun n b => 256 * n + b.toNat) 0

/-- The first `count` bytes as a number, and the rest. -/
def takeNumber (count : Nat) (bytes : List UInt8) : Option (Nat × List UInt8) :=
  if bytes.length < count then none
  else some (ofBigEndian (bytes.take count), bytes.drop count)

/-! ## Writing -/

/-- The major kind and the number in the least room. -/
def writeHead (major n : Nat) : List UInt8 :=
  if n < 24 then [(32 * major + n).toUInt8]
  else if n < UInt8.size then (32 * major + 24).toUInt8 :: bigEndian 1 n
  else if n < UInt16.size then (32 * major + 25).toUInt8 :: bigEndian 2 n
  else if n < UInt32.size then (32 * major + 26).toUInt8 :: bigEndian 4 n
  else (32 * major + 27).toUInt8 :: bigEndian 8 n

def writeNat (n : Nat) : List UInt8 := writeHead 0 n

def writeInt : Int → List UInt8
  | .ofNat n => writeHead 0 n
  | .negSucc n => writeHead 1 n

def writeBytes (bytes : List UInt8) : List UInt8 := writeHead 2 bytes.length ++ bytes

def writeText (s : String) : List UInt8 :=
  let bytes := Utf8.ofString s
  writeHead 3 bytes.length ++ bytes

def writeArray {α : Type} (write : α → List UInt8) (items : List α) : List UInt8 :=
  writeHead 4 items.length ++ items.flatMap write

/-- A map whose values are written already. -/
def writeRecord (fields : List (String × List UInt8)) : List UInt8 :=
  writeHead 5 fields.length ++ fields.flatMap fun (name, content) => writeText name ++ content

/-- A variant with content is a map of one entry. -/
def writeVariant (name : String) (content : List UInt8) : List UInt8 :=
  writeRecord [(name, content)]

def writeBool (b : Bool) : List UInt8 := [if b then 0xF5 else 0xF4]

def writeNull : List UInt8 := [0xF6]

def writeOption {α : Type} (write : α → List UInt8) : Option α → List UInt8
  | some a => write a
  | none => writeNull

/-! ## Reading -/

/-- The number of a head, and the rest; `none` inside for a head without one. -/
def readArgument (minor : Nat) (bytes : List UInt8) : Option (Option Nat × List UInt8) :=
  let wide (count : Nat) := (takeNumber count bytes).map fun (n, rest) => (some n, rest)
  if minor < 24 then some (some minor, bytes)
  else if minor = 24 then wide 1
  else if minor = 25 then wide 2
  else if minor = 26 then wide 4
  else if minor = 27 then wide 8
  else if minor = 31 then some (none, bytes)
  else none

/-- The head of a major kind with its number. -/
def headOf (major minor : Nat) (argument : Option Nat) : Option Head :=
  match major, argument with
  | 0, some n => some (.unsigned n)
  | 1, some n => some (.negative n)
  | 2, length => some (.bytes length)
  | 3, length => some (.text length)
  | 4, count => some (.array count)
  | 5, count => some (.map count)
  | 6, some n => some (.tag n)
  | 7, some n => some (if minor ≤ 24 then .simple n else .float)
  | 7, none => some .stop
  | _, _ => none

def readHead : List UInt8 → Option (Head × List UInt8)
  | [] => none
  | b :: bytes => do
    let (argument, rest) ← readArgument (b.toNat % 32) bytes
    let head ← headOf (b.toNat / 32) (b.toNat % 32) argument
    return (head, rest)

/-! ## Strings -/

/-- Which heads open a piece of a string, and how long the piece is. -/
abbrev StringKind := Head → Option (Option Nat)

def byteString : StringKind
  | .bytes length => some length
  | _ => none

def textString : StringKind
  | .text length => some length
  | _ => none

/-- The pieces of a string of open length, up to the stop that ends it. A piece may be of open
length in turn; `depth` counts how many of them are open. -/
def pieces (kind : StringKind) : (fuel depth : Nat) → List UInt8 →
    Option (List (List UInt8) × List UInt8)
  | 0, _, _ => none
  | fuel + 1, depth, bytes => do
    let (head, rest) ← readHead bytes
    match head, kind head with
    | .stop, _ => if depth ≤ 1 then some ([], rest) else pieces kind fuel (depth - 1) rest
    | _, some none => pieces kind fuel (depth + 1) rest
    | _, some (some length) =>
      if rest.length < length then none
      else
        let (more, last) ← pieces kind fuel depth (rest.drop length)
        return (rest.take length :: more, last)
    | _, none => none

/-- The pieces after a head of a known or an open length. -/
def stringAfter (kind : StringKind) (length : Option Nat) (bytes : List UInt8) :
    Option (List (List UInt8) × List UInt8) :=
  match length with
  | some length =>
    if bytes.length < length then none else some ([bytes.take length], bytes.drop length)
  | none => pieces kind (bytes.length + 1) 1 bytes

/-- Each piece has to be whole characters. -/
def textAfter (length : Option Nat) (bytes : List UInt8) : Option (String × List UInt8) := do
  let (found, rest) ← stringAfter textString length bytes
  let parts ← found.mapM Utf8.decode
  return (String.ofList parts.flatten, rest)

def bytesAfter (length : Option Nat) (bytes : List UInt8) :
    Option (List UInt8 × List UInt8) := do
  let (found, rest) ← stringAfter byteString length bytes
  return (found.flatten, rest)

end ValueTree.Cbor
