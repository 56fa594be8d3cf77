import ValueTree.Id
import ValueTree.Digest.Sha256
import ValueTree.Text.Hex
import ValueTree.Text.Utf8

/-!
# Tokens

A token stands for an id in 64 bits: the first eight bytes of the SHA-256 digest of the id's text.
-/

namespace ValueTree

structure Token where
  raw : UInt64
deriving DecidableEq, Inhabited, Repr

namespace Token

/-- The token of the id with this text. -/
def ofText (text : String) : Token :=
  let words := Sha256.digest (Utf8.ofString text)
  ⟨(words.a.toUInt64 <<< 32) ||| words.b.toUInt64⟩

/-- Sixteen hexadecimal digits. -/
def toText (t : Token) : String := String.ofList (Hex.fixedDigits 16 t.raw.toNat)

end Token

def Id.token (i : Id) : Token := Token.ofText i.toText

end ValueTree
