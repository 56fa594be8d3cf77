import ValueTree.Json.Record

/-!
# Reading any JSON

Any value whose numbers are whole is read as what it is.
-/

namespace ValueTree.Json

namespace Reader

/-- Members up to the end of their object. -/
def memberList {α : Type} (read : Reader α) : (fuel : Nat) → (first : Bool) →
    Reader (List (String × α))
  | 0, _ => pure []
  | fuel + 1, first => do
    if ← hasMember first then
      let key ← text
      colon
      let a ← read
      let more ← memberList read fuel false
      pure ((key, a) :: more)
    else pure []

/-- A value with brackets up to a depth. -/
def tree : (depth : Nat) → Reader Json
  | 0 => failNext .tooDeep
  | depth + 1 => placed do
    match ← skipBlanks with
    | none => failNext .endInValue
    | some 'n' => do
      word ['n', 'u', 'l', 'l']
      pure .null
    | some 't' | some 'f' => do pure (.bool (← bool))
    | some '"' => do pure (.text (← text))
    | some '[' => do pure (.array (← listOf (tree depth)))
    | some '\x7b' => do
      let read := do memberList (tree depth) (← bound) true
      pure (.object (← between read closeObject))
    | some _ => do pure (.integer (← integerAs "integer" some))

end Reader

/-- Any value from a text. -/
def parse? (text : String) : Option Json :=
  (parse (do Reader.tree ((← get).room + 1)) text).toOption

end ValueTree.Json
