import ValueTree.Text.Hex
import ValueTree.Text.Unprintable

/-!
# Quoted text

A text between double quotes on a line of its own. A character that would not show is written by its
number.
-/

namespace ValueTree.Quoted

/-- An escape by number has as few digits as the number needs. -/
def escapeChar (c : Char) : List Char :=
  if c = '\x00' then ['\\', '0']
  else if c = '\t' then ['\\', 't']
  else if c = '\r' then ['\\', 'r']
  else if c = '\n' then ['\\', 'n']
  else if c = '"' then ['\\', '"']
  else if c = '\\' then ['\\', '\\']
  else if Unprintable.has c then '\\' :: 'u' :: '\x7b' :: Hex.digits c.toNat ++ ['\x7d']
  else [c]

def encode (s : String) : String := String.ofList ('"' :: s.toList.flatMap escapeChar ++ ['"'])

end ValueTree.Quoted
