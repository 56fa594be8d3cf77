import ValueTree.Cbor.Skip

/-!
# Typed readers

A reader takes an item of a known shape from the front of the bytes. Tags before an item are passed
over. A reader knows how many levels it may still go down.

Records are maps with named fields. A variant is a name alone, or a map with the name as its only
key. A fixed sequence and the content of a variant stop after their last part, and what is left of
them stays in the stream.
-/

namespace ValueTree.Cbor

def Reader (α : Type) : Type := (depth : Nat) → List UInt8 → Option (α × List UInt8)

namespace Reader

variable {α β : Type}

protected def pure (a : α) : Reader α := fun _ bytes => some (a, bytes)

protected def bind (r : Reader α) (next : α → Reader β) : Reader β := fun depth bytes =>
  match r depth bytes with
  | some (a, rest) => next a depth rest
  | none => none

instance : Monad Reader where
  pure := Reader.pure
  bind := Reader.bind

def fail : Reader α := fun _ _ => none

def ofOption : Option α → Reader α
  | some a => pure a
  | none => fail

/-- Reads one level further down. -/
def nested (r : Reader α) : Reader α
  | 0, _ => none
  | depth + 1, bytes => r depth bytes

/-! ## Heads -/

def head : Reader Head := fun _ bytes => readHead bytes

/-- The head behind any tags. Each tag takes at least a byte. -/
def skipTags : (fuel : Nat) → List UInt8 → Option (Head × List UInt8)
  | 0, _ => none
  | fuel + 1, bytes =>
    match readHead bytes with
    | some (.tag _, rest) => skipTags fuel rest
    | found => found

def untagged : Reader Head := fun _ bytes => skipTags (bytes.length + 1) bytes

/-- Whether a stop is next; it is taken if so. -/
def takeStop : Reader Bool := fun _ bytes =>
  match readHead bytes with
  | some (.stop, rest) => some (true, rest)
  | some _ => some (false, bytes)
  | none => none

/-- Passes over an item. -/
def ignore : Reader Unit := fun depth bytes => (skip depth bytes).map ((), ·)

/-! ## Numbers -/

/-- The bytes of a big number: leading zeros do not count, and at most sixteen bytes do. -/
def bigNat? (bytes : List UInt8) : Option Nat :=
  let significant := bytes.dropWhile (· = 0)
  if 16 < significant.length then none else some (ofBigEndian significant)

def bigNat : Reader Nat := do
  match ← head with
  | .bytes length => do
    let bytes ← (fun _ rest => bytesAfter length rest : Reader (List UInt8))
    ofOption (bigNat? bytes)
  | _ => fail

/-- A number behind any tags; the tags 2 and 3 open a big number. -/
def integerFrom : (fuel : Nat) → Reader Int
  | 0 => fail
  | fuel + 1 => do
    match ← head with
    | .unsigned n => pure n
    | .negative n => pure (Int.negSucc n)
    | .tag 2 => do pure (← bigNat)
    | .tag 3 => do pure (Int.negSucc (← bigNat))
    | .tag _ => integerFrom fuel
    | _ => fail

def integer : Reader Int := fun depth bytes => integerFrom (bytes.length + 1) depth bytes

/-- An integer between two bounds. -/
def integerIn (low high : Int) : Reader Int := do
  let n ← integer
  if low ≤ n && n ≤ high then pure n else fail

def natBelow (limit : Nat) : Reader Nat := do pure (← integerIn 0 (limit - 1)).toNat

def int64 : Reader Int64 := do
  pure (Int64.ofInt (← integerIn Int64.minValue.toInt Int64.maxValue.toInt))

def uint64 : Reader UInt64 := do pure (← natBelow UInt64.size).toUInt64

def uint32 : Reader UInt32 := do pure (← natBelow UInt32.size).toUInt32

def byte : Reader UInt8 := do pure (← natBelow 256).toUInt8

/-! ## Simple values and strings -/

def bool : Reader Bool := do
  match ← untagged with
  | .simple 20 => pure false
  | .simple 21 => pure true
  | _ => fail

def string : Reader String := do
  match ← untagged with
  | .text length => fun _ rest => textAfter length rest
  | _ => fail

/-- How long a name or an identifier may be. -/
def nameLimit : Nat := 4096

/-- Some bytes of a known length. -/
def exactly (length : Nat) : Reader (List UInt8) := fun _ bytes =>
  if nameLimit < length || bytes.length < length then none
  else some (bytes.take length, bytes.drop length)

/-- A byte string of a known length. -/
def shortBytes : Reader (List UInt8) := do
  match ← untagged with
  | .bytes (some length) => exactly length
  | _ => fail

/-- The name of a field or a variant, as text or as bytes. Bytes that are no text are no known name,
which is `none`. -/
def name : Reader (Option String) := do
  match ← untagged with
  | .text (some length) => do
    let s ← ofOption (Utf8.toString? (← exactly length))
    pure (some s)
  | .bytes (some length) => do pure (Utf8.toString? (← exactly length))
  | _ => fail

/-- Null and undefined stand for nothing; a tag before them does not. -/
def option (r : Reader α) : Reader (Option α) := fun depth bytes =>
  match readHead bytes with
  | some (.simple 22, rest) | some (.simple 23, rest) => some (none, rest)
  | some _ => (r depth bytes).map fun (a, rest) => (some a, rest)
  | none => none

/-! ## Sequences -/

def times (r : Reader α) : Nat → Reader (List α)
  | 0 => pure []
  | count + 1 => do
    let a ← r
    let more ← times r count
    pure (a :: more)

/-- Items up to a stop. -/
def untilStop (r : Reader α) : (fuel : Nat) → Reader (List α)
  | 0 => fail
  | fuel + 1 => do
    if ← takeStop then pure []
    else
      let a ← r
      let more ← untilStop r fuel
      pure (a :: more)

/-- All items, of a known or an open count. -/
def items (r : Reader α) : Option Nat → Reader (List α)
  | some count => times r count
  | none => fun depth bytes => untilStop r (bytes.length + 1) depth bytes

/-- The first items of a sequence of a known or an open count; the others are not touched. -/
def firstItems (r : Reader α) : (wanted : Nat) → Option Nat → Reader (List α)
  | 0, _ => pure []
  | _ + 1, some 0 => fail
  | wanted + 1, some (count + 1) => do
    let a ← r
    let more ← firstItems r wanted (some count)
    pure (a :: more)
  | wanted + 1, none => do
    if ← takeStop then fail
    else
      let a ← r
      let more ← firstItems r wanted none
      pure (a :: more)

/-- A list: an array, or a byte string whose bytes `ofByte?` takes for items. -/
def list (ofByte? : UInt8 → Option α) (r : Reader α) : Reader (List α) := do
  match ← untagged with
  | .array count => nested (items r count)
  | .bytes length => do
    let bytes ← (fun _ rest => bytesAfter length rest : Reader (List UInt8))
    ofOption (bytes.mapM ofByte?)
  | _ => fail

def listOf (r : Reader α) : Reader (List α) := list (fun _ => none) r

/-- A fixed count of bytes, as an array or the front of a byte string. -/
def octets (count : Nat) : Reader (List UInt8) := do
  match ← untagged with
  | .array found => nested (firstItems byte count found)
  | .bytes length => do
    let bytes ← (fun _ rest => bytesAfter length rest : Reader (List UInt8))
    if bytes.length < count then fail else pure (bytes.take count)
  | _ => fail

end Reader

/-! ## Records -/

/-- The fields of a record in their order, each with its name and its reader. -/
inductive Layout : List Type → Type 1
  | nil : Layout []
  | field {α : Type} {more : List Type} (name : String) (read : Reader α) (rest : Layout more) :
    Layout (α :: more)

/-- What has been read of each field. -/
def Slots : List Type → Type
  | [] => Unit
  | α :: more => Option α × Slots more

namespace Layout

def empty : {fields : List Type} → Layout fields → Slots fields
  | _, nil => ()
  | _, field _ _ rest => (none, rest.empty)

/-- Reads the content of one entry of a map. A field may come once, and unknown ones are passed
over. -/
def entry : {fields : List Type} → Layout fields → Option String → Slots fields →
    Reader (Slots fields)
  | _, nil, _, slots => do
    Reader.ignore
    pure slots
  | _, field name read rest, found, (slot, slots) =>
    if found = some name then
      match slot with
      | some _ => Reader.fail
      | none => do
        let a ← read
        pure (some a, slots)
    else do
      let slots ← rest.entry found slots
      pure (slot, slots)

/-- A known count of entries. -/
def entries {fields : List Type} (layout : Layout fields) :
    (count : Nat) → Slots fields → Reader (Slots fields)
  | 0, slots => pure slots
  | count + 1, slots => do
    let name ← Reader.name
    layout.entries count (← layout.entry name slots)

/-- Entries up to a stop. -/
def openEntries {fields : List Type} (layout : Layout fields) :
    (fuel : Nat) → Slots fields → Reader (Slots fields)
  | 0, _ => Reader.fail
  | fuel + 1, slots => do
    if ← Reader.takeStop then pure slots
    else
      let name ← Reader.name
      layout.openEntries fuel (← layout.entry name slots)

/-- The entries after the head of a map. -/
def mapAfter {fields : List Type} (layout : Layout fields) : Option Nat → Reader (Slots fields)
  | some count => layout.entries count layout.empty
  | none => fun depth bytes => layout.openEntries (bytes.length + 1) layout.empty depth bytes

/-- The fields in their order, from a sequence of a known or an open count. -/
def inOrder : {fields : List Type} → Layout fields → Option Nat → Reader (Slots fields)
  | _, nil, _ => pure ()
  | _, field _ _ _, some 0 => Reader.fail
  | _, field _ read rest, some (count + 1) => do
    let a ← read
    let more ← rest.inOrder (some count)
    pure (some a, more)
  | _, field _ read rest, none => do
    if ← Reader.takeStop then Reader.fail
    else
      let a ← read
      let more ← rest.inOrder none
      pure (some a, more)

/-- A record is a map. -/
def record {fields : List Type} (layout : Layout fields) : Reader (Slots fields) := do
  match ← Reader.untagged with
  | .map count => Reader.nested (layout.mapAfter count)
  | _ => Reader.fail

/-- The fields of a variant: a map or an array, without a tag. -/
def content {fields : List Type} (layout : Layout fields) : Reader (Slots fields) := do
  match ← Reader.head with
  | .map count => Reader.nested (layout.mapAfter count)
  | .array count => Reader.nested (layout.inOrder count)
  | _ => Reader.fail

end Layout

/-! ## Variants -/

/-- Leaves the bytes as they are if a text is next. -/
def nameNext : Reader Unit := fun _ bytes =>
  match readHead bytes with
  | some (.text _, _) => some ((), bytes)
  | some (.map (some 1), rest) => some ((), rest)
  | _ => none

/-- Passes over tags only. -/
def dropTags : (fuel : Nat) → List UInt8 → List UInt8
  | 0, bytes => bytes
  | fuel + 1, bytes =>
    match readHead bytes with
    | some (.tag _, rest) => dropTags fuel rest
    | _ => bytes

/-- One of several variants. A variant without content takes none, even if some stands there. -/
def variant {α : Type} (cases : List (String × Reader α)) : Reader α := do
  (fun _ bytes => some ((), dropTags bytes.length bytes) : Reader Unit)
  nameNext
  Reader.nested do
    match ← Reader.name with
    | some name =>
      match cases.lookup name with
      | some read => read
      | none => Reader.fail
    | none => Reader.fail

end ValueTree.Cbor
