import ValueTree.Payload.Address

/-!
# The grammar of command lines

A verb has switches, which are known by their names, and places, which are filled in order by all
the other words.
-/

namespace ValueTree.CommandLine

/-! ## Verbs -/

/-- What a word has to be. -/
inductive ValueKind
  | text
  /-- A text that is not empty. -/
  | path
  /-- A number of 64 bits, perhaps after a plus sign. -/
  | number
  /-- An internet address with the number of a service. -/
  | address
deriving DecidableEq, Repr, Inhabited

/-- What a switch leads to. -/
inductive Effect
  | keep
  | help
  | version
deriving DecidableEq, Repr, Inhabited

structure Switch where
  long : String
  short : Option Char := none
  /-- The name and the kind of its value; a flag has none. -/
  value : Option (String × ValueKind) := none
  about : String
  preset : Option String := none
  effect : Effect := .keep
  /-- The switch that it cannot be used with. -/
  excludes : Option String := none
deriving DecidableEq, Repr, Inhabited

structure Place where
  name : String
  kind : ValueKind := .text
  required : Bool := true
  /-- Takes all the words that are left. -/
  many : Bool := false
  about : String
deriving DecidableEq, Repr, Inhabited

structure Verb where
  name : String
  about : String
  /-- In the order in which help shows them. -/
  switches : List Switch := []
  /-- Those of its switches that it does not share or have from elsewhere. -/
  own : List Switch := []
  places : List Place := []
deriving DecidableEq, Repr, Inhabited

namespace Switch

def isFlag (s : Switch) : Bool := s.value.isNone

/-- The name with the name of the value. -/
def label (s : Switch) : String :=
  match s.value with
  | some (name, _) => "--" ++ s.long ++ " <" ++ name ++ ">"
  | none => "--" ++ s.long

/-- Two switches exclude each other if one of them says so. -/
def conflicts (s other : Switch) : Bool :=
  s.excludes = some other.long || other.excludes = some s.long

end Switch

namespace Place

/-- The name in angles, or in brackets if nothing has to stand there. -/
def labelAs (p : Place) (needed : Bool) : String :=
  let name := if needed then "<" ++ p.name ++ ">" else "[" ++ p.name ++ "]"
  if p.many then name ++ "..." else name

def label (p : Place) : String := p.labelAs p.required

end Place

namespace Verb

def longs (v : Verb) : List String := v.switches.map (·.long)

end Verb

/-! ## Words -/

/-- What is wrong with the text of a number. -/
inductive NumberFault
  | empty
  | strange
  | tooLarge
deriving DecidableEq, Repr, Inhabited

def NumberFault.message : NumberFault → String
  | .empty => "cannot parse integer from empty string"
  | .strange => "invalid digit found in string"
  | .tooLarge => "number too large to fit in target type"

namespace ValueKind

/-- Puts digits behind a number. The first that does not fit decides what is wrong. -/
def digits (n : Nat) : List Char → Except NumberFault Nat
  | [] => .ok n
  | c :: cs =>
    match Digits.decimalValue? c with
    | none => .error .strange
    | some d => if UInt64.size ≤ n * 10 + d then .error .tooLarge else digits (n * 10 + d) cs

/-- The number that a word writes. -/
def number? (word : String) : Except NumberFault Nat :=
  match word.toList with
  | [] => .error .empty
  | ['+'] => .error .strange
  | '+' :: cs | cs => digits 0 cs

end ValueKind

/-- A word by its form. -/
inductive Word
  /-- Two dashes alone: only places follow. -/
  | escape
  | long (name : String) (value : Option String)
  | short (letters : List Char)
  | plain

namespace Word

/-- What stands before an equals sign, and what stands behind it. -/
def splitValue : List Char → List Char × Option (List Char)
  | [] => ([], none)
  | c :: cs =>
    if c = '=' then ([], some cs)
    else
      let (name, value) := splitValue cs
      (c :: name, value)

/-- A dash alone is a plain word. -/
def ofText (text : String) : Word :=
  match text.toList with
  | ['-', '-'] => escape
  | '-' :: '-' :: cs =>
    let (name, value) := splitValue cs
    long (String.ofList name) (value.map String.ofList)
  | '-' :: c :: cs => short (c :: cs)
  | _ => plain

end Word

end ValueTree.CommandLine
