import ValueTree.Text.Hex

/-!
# JSON values

Members of an object keep their order, and a key may stand twice. Numbers are whole.
-/

namespace ValueTree

inductive Json
  | null
  | bool (b : Bool)
  | integer (n : Int)
  | text (s : String)
  | array (items : List Json)
  | object (members : List (String × Json))
deriving Repr, Inhabited

namespace Json

/-! ## Building -/

def nat (n : Nat) : Json := integer n

def texts (items : List String) : Json := array (items.map text)

def ofOption {α : Type} (toJson : α → Json) : Option α → Json
  | some a => toJson a
  | none => null

/-- A variant with content is an object of one member, named for the variant. -/
def variant (name : String) (content : Json) : Json := object [(name, content)]

/-! ## Writing -/

/-- Control characters without a short escape are written in hexadecimal. -/
def escapeChar (c : Char) : List Char :=
  if c = '"' then ['\\', '"']
  else if c = '\\' then ['\\', '\\']
  else if c = '\x08' then ['\\', 'b']
  else if c = '\x0c' then ['\\', 'f']
  else if c = '\n' then ['\\', 'n']
  else if c = '\r' then ['\\', 'r']
  else if c = '\t' then ['\\', 't']
  else if c.toNat < 0x20 then '\\' :: 'u' :: Hex.fixedDigits 4 c.toNat
  else [c]

def quote (s : String) : String :=
  String.ofList ('"' :: s.toList.flatMap escapeChar ++ ['"'])

mutual

/-- The text without any blank. -/
def write : Json → String
  | null => "null"
  | bool b => if b then "true" else "false"
  | integer n => toString n
  | text s => quote s
  | array items => "[" ++ String.intercalate "," (writeItems items) ++ "]"
  | object members => "\x7b" ++ String.intercalate "," (writeMembers members) ++ "\x7d"

def writeItems : List Json → List String
  | [] => []
  | item :: rest => item.write :: writeItems rest

def writeMembers : List (String × Json) → List String
  | [] => []
  | (key, value) :: rest => (quote key ++ ":" ++ value.write) :: writeMembers rest

end

end Json

end ValueTree
