/-!
# Shortest decimals

A binary fraction is written with the fewest digits that read back as the same fraction; of several
such numbers the nearest is taken.
-/

namespace ValueTree

/-! ## Binary fractions -/

/-- A positive number `mantissa · 2 ^ exponent` of a format with a fixed count of binary digits. -/
structure Binary where
  mantissa : Nat
  exponent : Int
  /-- The number below is only half as far away as the number above. -/
  atStep : Bool
deriving DecidableEq, Repr, Inhabited

namespace Binary

/-- The parts of a positive finite number of 64 bits. -/
def ofBits (bits : UInt64) : Binary :=
  let fraction := bits.toNat % 4503599627370496
  let scale := bits.toNat / 4503599627370496 % 2048
  if scale = 0 then ⟨fraction, -1074, false⟩
  else ⟨4503599627370496 + fraction, (scale : Int) - 1075, fraction = 0 && 1 < scale⟩

/-- In quarters of the last binary digit: the least number that reads back as this one, the number
itself, and the greatest. -/
def quarters (b : Binary) : Nat × Nat × Nat :=
  let middle := 4 * b.mantissa
  (middle - (if b.atStep then 1 else 2), middle, middle + 2)

end Binary

/-! ## Decimals -/

/-- The number `digits · 10 ^ exponent`. -/
structure Decimal where
  digits : Nat
  exponent : Int
deriving DecidableEq, Repr, Inhabited

namespace Decimal

/-- A count of quarters of a binary fraction over a power of ten, as a quotient. -/
def quotient (b : Binary) (quarters : Nat) (exponent : Int) : Nat × Nat :=
  let twos := b.exponent - 2
  (quarters * Nat.pow 2 twos.toNat * Nat.pow 10 (-exponent).toNat,
    Nat.pow 2 (-twos).toNat * Nat.pow 10 exponent.toNat)

/-- Whether a number of the grid reads back. The ends do so if the mantissa is even. -/
def readsBack (b : Binary) (exponent : Int) (digits : Nat) : Bool :=
  let (least, _, greatest) := b.quarters
  let (low, unit) := quotient b least exponent
  let (high, _) := quotient b greatest exponent
  if b.mantissa % 2 = 0 then low ≤ digits * unit && digits * unit ≤ high
  else low < digits * unit && digits * unit < high

/-- The number of the grid that is nearest among those that read back, if there is one. Of two that
are equally near it is the even one. -/
def onGrid? (b : Binary) (exponent : Int) : Option Decimal :=
  let (middle, unit) := quotient b b.quarters.2.1 exponent
  let below := middle / unit
  let left := middle % unit
  let lower := readsBack b exponent below
  let upper := readsBack b exponent (below + 1)
  let up := unit < 2 * left || (unit = 2 * left && below % 2 = 1)
  if lower && upper then some ⟨if up then below + 1 else below, exponent⟩
  else if lower then some ⟨below, exponent⟩
  else if upper then some ⟨below + 1, exponent⟩
  else none

/-- The coarsest grid with a number that reads back has the fewest digits. -/
def shortest (b : Binary) : Decimal :=
  ((List.range 640).findSome? fun (n : Nat) => onGrid? b (310 - (n : Int))).getD ⟨0, 0⟩

/-! ## Text -/

def zeros (count : Nat) : List Char := List.replicate count '0'

/-- The digits around a point that stands behind the first `point` of them. -/
def positional (digits : List Char) (point : Int) : List Char :=
  let whole := (digits ++ zeros (point.toNat - digits.length)).take point.toNat
  let fraction := zeros (-point).toNat ++ digits.drop point.toNat
  (if whole.isEmpty then ['0'] else whole) ++
    '.' :: (if fraction.isEmpty then ['0'] else fraction)

/-- One digit before the point; the exponent always has a sign. -/
def scientific (digits : List Char) (point : Int) : List Char :=
  let sign := if 1 ≤ point then '+' else '-'
  let fraction := if digits.length ≤ 1 then [] else '.' :: digits.drop 1
  digits.take 1 ++ fraction ++ 'e' :: sign :: (toString (point - 1).natAbs).toList

/-- Exponents stand only where the point would be far from the digits. -/
def toText (d : Decimal) : String :=
  let digits := (toString d.digits).toList
  let point := digits.length + d.exponent
  String.ofList
    (if -5 < point && point ≤ 16 then positional digits point else scientific digits point)

/-- The text of a finite number, which always shows a point or an exponent. -/
def textOf (x : Float) : String :=
  let sign := if x.toBits.toNat < 9223372036854775808 then "" else "-"
  let size := x.abs
  sign ++ (if size == 0 then "0.0" else (shortest (.ofBits size.toBits)).toText)

end Decimal

end ValueTree
