/-!
# UTF-8

Characters as bytes, one to four each, and back. Reading is strict: no overlong form, no
surrogate, nothing above the last code point.
-/

namespace ValueTree.Utf8

/-! ## Writing -/

/-- A continuation byte holds six bits. -/
def tailByte (n : Nat) : UInt8 := (0x80 + n % 0x40).toUInt8

def encodeChar (c : Char) : List UInt8 :=
  let n := c.toNat
  if n < 0x80 then [n.toUInt8]
  else if n < 0x800 then [(0xC0 + n / 0x40).toUInt8, tailByte n]
  else if n < 0x10000 then [(0xE0 + n / 0x1000).toUInt8, tailByte (n / 0x40), tailByte n]
  else [(0xF0 + n / 0x40000).toUInt8, tailByte (n / 0x1000), tailByte (n / 0x40), tailByte n]

def encode (cs : List Char) : List UInt8 := cs.flatMap encodeChar

def ofString (s : String) : List UInt8 := encode s.toList

/-! ## Reading -/

def isTail (b : UInt8) : Bool := 0x80 ≤ b && b < 0xC0

/-- The six bits of a continuation byte. -/
def tailBits (b : UInt8) : Nat := b.toNat - 0x80

/-- A character, unless the number is a surrogate or too large. -/
def scalar? (n : Nat) : Option Char :=
  if n.isValidChar then some (Char.ofNat n) else none

/-! A character of two, three or four bytes, whose first byte has been looked at. -/

def two? (a b : UInt8) : Option Char :=
  if isTail b then scalar? ((a.toNat - 0xC0) * 0x40 + tailBits b) else none

def three? (a b c : UInt8) : Option Char :=
  let n := (a.toNat - 0xE0) * 0x1000 + tailBits b * 0x40 + tailBits c
  if isTail b && isTail c && 0x800 ≤ n then scalar? n else none

def four? (a b c d : UInt8) : Option Char :=
  let n := (a.toNat - 0xF0) * 0x40000 + tailBits b * 0x1000 + tailBits c * 0x40 + tailBits d
  if isTail b && isTail c && isTail d && 0x10000 ≤ n then scalar? n else none

/-- A character and those that follow it. -/
def consChar : Option Char → Option (List Char) → Option (List Char)
  | some c, some cs => some (c :: cs)
  | _, _ => none

def decode : List UInt8 → Option (List Char)
  | [] => some []
  | a :: rest =>
    if a < 0x80 then consChar (scalar? a.toNat) (decode rest)
    else if a < 0xC2 then none
    else if a < 0xE0 then
      match rest with
      | b :: rest => consChar (two? a b) (decode rest)
      | _ => none
    else if a < 0xF0 then
      match rest with
      | b :: c :: rest => consChar (three? a b c) (decode rest)
      | _ => none
    else if a < 0xF5 then
      match rest with
      | b :: c :: d :: rest => consChar (four? a b c d) (decode rest)
      | _ => none
    else none

def toString? (bytes : List UInt8) : Option String := (decode bytes).map String.ofList

end ValueTree.Utf8
