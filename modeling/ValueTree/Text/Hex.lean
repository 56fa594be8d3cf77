/-!
# Hexadecimal text

Bytes as pairs of lower-case digits, and numbers with a fixed count of digits.
-/

namespace ValueTree.Hex

def digit (n : Nat) : Char :=
  if n < 10 then Char.ofNat (48 + n) else Char.ofNat (87 + n)

/-- The value of a digit of either case. -/
def digitValue? (c : Char) : Option Nat :=
  let n := c.toNat
  if 48 ≤ n ∧ n < 58 then some (n - 48)
  else if 97 ≤ n ∧ n < 103 then some (n - 87)
  else if 65 ≤ n ∧ n < 71 then some (n - 55)
  else none

def byteDigits (b : UInt8) : List Char := [digit (b.toNat / 16), digit (b.toNat % 16)]

def encode (bytes : List UInt8) : String := String.ofList (bytes.flatMap byteDigits)

def decodeChars : List Char → Option (List UInt8)
  | [] => some []
  | a :: b :: rest =>
    match digitValue? a, digitValue? b, decodeChars rest with
    | some x, some y, some bytes => some ((16 * x + y).toUInt8 :: bytes)
    | _, _, _ => none
  | [_] => none

def decode? (text : String) : Option (List UInt8) := decodeChars text.toList

/-- The last `count` digits of a number, most significant first. -/
def fixedDigits : (count : Nat) → Nat → List Char
  | 0, _ => []
  | count + 1, n => fixedDigits count (n / 16) ++ [digit (n % 16)]

/-- The digits of a number, without leading zeros. -/
def digits (n : Nat) : List Char := Nat.toDigits 16 n

/-- The number that the digits write; at least one is needed. -/
def number? (cs : List Char) : Option Nat :=
  if cs.isEmpty then none
  else cs.foldl (fun acc c => acc.bind fun n => (digitValue? c).map (16 * n + ·)) (some 0)

end ValueTree.Hex
