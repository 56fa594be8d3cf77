import ValueTree.Json.Scalar
import ValueTree.Json.Skip

/-!
# Lists, records and variants in JSON

A record is an object, or an array with the fields in their order. Members that a record does not
know are passed over. A variant is its name, or an object with the name as its only key.
-/

namespace ValueTree.Json

namespace Reader

variable {α : Type}

/-! ## Lists -/

/-- Items up to the end of their array. -/
def items (read : Reader α) : (fuel : Nat) → (first : Bool) → Reader (List α)
  | 0, _ => pure []
  | fuel + 1, first => do
    if ← hasItem first then
      let item ← read
      let more ← items read fuel false
      pure (item :: more)
    else pure []

/-- What stands in an array. -/
def inArray (expected : String) (read : Reader α) : Reader α := placed do
  match ← skipBlanks with
  | none => failNext .endInValue
  | some '[' => between read closeArray
  | some _ => unexpected expected

def listOf (read : Reader α) : Reader (List α) :=
  inArray "a sequence" do items read (← bound) true

/-- The next items of an array, which have to be there. -/
def nextItems (read : Reader α) (expected : String) : (wanted : Nat) → (index : Nat) →
    Reader (List α)
  | 0, _ => pure []
  | wanted + 1, index => do
    if ← hasItem (index = 0) then
      let item ← read
      let more ← nextItems read expected wanted (index + 1)
      pure (item :: more)
    else failUnplaced (.wrongLength index expected)

/-- An array of a fixed length. -/
def vectorOf (read : Reader α) (length : Nat) : Reader (List α) :=
  let expected := "an array of length " ++ toString length
  inArray expected (nextItems read expected length 0)

end Reader

/-! ## Records -/

/-- The fields of a record in their order, each with its name and its reader. A field may have a
value for when it is missing. -/
inductive Layout : List Type → Type 1
  | nil : Layout []
  | field {α : Type} {more : List Type} (name : String) (read : Reader α) (absent? : Option α)
    (rest : Layout more) : Layout (α :: more)

/-- What has been read of each field. -/
def Slots : List Type → Type
  | [] => Unit
  | α :: more => Option α × Slots more

/-- A value for each field. -/
def Fields : List Type → Type
  | [] => Unit
  | α :: more => α × Fields more

namespace Layout

open Reader

/-- A field that has to be there. -/
def need {α : Type} {more : List Type} (name : String) (read : Reader α) (rest : Layout more) :
    Layout (α :: more) :=
  field name read none rest

/-- A field that may be missing. -/
def may {α : Type} {more : List Type} (name : String) (read : Reader α) (absent : α)
    (rest : Layout more) : Layout (α :: more) :=
  field name read (some absent) rest

def count : {fields : List Type} → Layout fields → Nat
  | _, nil => 0
  | _, field _ _ _ rest => rest.count + 1

def empty : {fields : List Type} → Layout fields → Slots fields
  | _, nil => ()
  | _, field _ _ _ rest => (none, rest.empty)

/-- Reads what stands behind a key. -/
def member : {fields : List Type} → Layout fields → (key : String) → Slots fields →
    Reader (Slots fields)
  | _, nil, _, slots => do
    colon
    skip
    pure slots
  | _, field name read _ rest, key, (slot, slots) =>
    if key = name then
      match slot with
      | some _ => failUnplaced (.repeatedField name)
      | none => do
        colon
        let a ← read
        pure (some a, slots)
    else do
      let slots ← rest.member key slots
      pure (slot, slots)

/-- Members up to the end of their object. -/
def members {fields : List Type} (layout : Layout fields) :
    (fuel : Nat) → (first : Bool) → Slots fields → Reader (Slots fields)
  | 0, _, slots => pure slots
  | fuel + 1, first, slots => do
    if ← hasMember first then
      let key ← Reader.text
      let slots ← layout.member key slots
      layout.members fuel false slots
    else pure slots

/-- The fields, if none is missing that has to be there. -/
def filled : {fields : List Type} → Layout fields → Slots fields → Except Cause (Fields fields)
  | _, nil, _ => .ok ()
  | _, field name _ absent? rest, (slot, slots) =>
    match slot.or absent? with
    | none => .error (.missingField name)
    | some a => (rest.filled slots).map (a, ·)

/-- The fields of an object. -/
def byName {fields : List Type} (layout : Layout fields) : Reader (Fields fields) := do
  let slots ← layout.members (← bound) true layout.empty
  match layout.filled slots with
  | .ok values => pure values
  | .error cause => failUnplaced cause

/-- The fields of an array. -/
def inOrder (expected : String) : {fields : List Type} → Layout fields → (index : Nat) →
    Reader (Fields fields)
  | _, nil, _ => pure ()
  | _, field _ read absent? rest, index => do
    let a ← if ← hasItem (index = 0) then read
      else
        match absent? with
        | some a => pure a
        | none => failUnplaced (.wrongLength index expected)
    let more ← rest.inOrder expected (index + 1)
    pure (a, more)

/-- How long the array has to be. -/
def lengthText {fields : List Type} (layout : Layout fields) (title : String) : String :=
  title ++ " with " ++ toString layout.count ++
    (if layout.count = 1 then " element" else " elements")

/-- A record that is called so where something else stands. -/
def record {fields : List Type} (layout : Layout fields) (title : String) :
    Reader (Fields fields) :=
  placed do
    match ← skipBlanks with
    | none => failNext .endInValue
    | some '[' => between (layout.inOrder (layout.lengthText title) 0) closeArray
    | some '\x7b' => between layout.byName closeObject
    | some _ => unexpected title

end Layout

/-! ## Variants -/

/-- What a variant holds. -/
inductive Content (α : Type)
  | nothing (a : α)
  | value (read : Reader α)
  | fields (read : Reader α)

namespace Content

open Reader

variable {α : Type}

/-- The variant, if only its name stands there. -/
def alone : Content α → Reader α
  | nothing a => pure a
  | value _ => failUnplaced (.wrongType "unit variant" "newtype variant")
  | fields _ => failUnplaced (.wrongType "unit variant" "struct variant")

/-- The variant, if its name is a key. -/
def behindKey : Content α → Reader α
  | nothing a => do
    unit
    pure a
  | value read | fields read => read

end Content

namespace Reader

variable {α : Type}

def variantName (cases : List (String × Content α)) : Reader (Content α) :=
  stringAs "variant identifier" fun name =>
    match cases.lookup name with
    | some content => .ok content
    | none => .error (.unknownVariant name (cases.map (·.1)))

/-- The name of a variant as the only key of an object. Without any key, a value is missing. -/
def variantKey (cases : List (String × Content α)) : Reader (Content α) := do
  match ← skipBlanks with
  | none => failNext .endInObject
  | some '"' => variantName cases
  | some '\x7d' => failNext .missingValue
  | some _ => failNext .missingKey

/-- One of several variants. -/
def variant (cases : List (String × Content α)) : Reader α := do
  match ← skipBlanks with
  | none => failNext .endInValue
  | some '"' => do (← variantName cases).alone
  | some '\x7b' => do
    let a ← deeper do
      let content ← variantKey cases
      colon
      content.behindKey
    match ← skipBlanks with
    | none => failHere .endInObject
    | some '\x7d' => do
      eat
      pure a
    | some _ => failHere .missingValue
  | some _ => failNext .missingValue

/-- One of several names. -/
def choice (choices : List (String × α)) : Reader α :=
  variant (choices.map fun (name, a) => (name, .nothing a))

end Reader

end ValueTree.Json
