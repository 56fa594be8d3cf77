/-!
# Widths and bounded integers

An integer payload has a width and may declare bounds. Both bounds zero mean that none are declared.
-/

namespace ValueTree

/-! ## Widths -/

inductive Width
  | i8 | i16 | i32 | i64 | u8 | u16 | u32 | u64
deriving DecidableEq, Repr, Inhabited

namespace Width

def all : List Width := [.i8, .i16, .i32, .i64, .u8, .u16, .u32, .u64]

def isSigned : Width → Bool
  | .i8 | .i16 | .i32 | .i64 => true
  | .u8 | .u16 | .u32 | .u64 => false

/-- The least and the greatest number of this width. -/
def limits : Width → Int × Int
  | .i8 => (-128, 127)
  | .i16 => (-32768, 32767)
  | .i32 => (-2147483648, 2147483647)
  | .i64 => (-9223372036854775808, 9223372036854775807)
  | .u8 => (0, 255)
  | .u16 => (0, 65535)
  | .u32 => (0, 4294967295)
  | .u64 => (0, 18446744073709551615)

/-- The name on the wire. -/
def name : Width → String
  | .i8 => "i8" | .i16 => "i16" | .i32 => "i32" | .i64 => "i64"
  | .u8 => "u8" | .u16 => "u16" | .u32 => "u32" | .u64 => "u64"

/-- The name in messages for people. -/
def label : Width → String
  | .i8 => "I8" | .i16 => "I16" | .i32 => "I32" | .i64 => "I64"
  | .u8 => "U8" | .u16 => "U16" | .u32 => "U32" | .u64 => "U64"

end Width

/-! ## Bounded integers -/

/-- The machine integers that a payload can hold. -/
class WholeNumber (α : Type) where
  toInt : α → Int
  zero : α

instance : WholeNumber Int64 := ⟨Int64.toInt, 0⟩

instance : WholeNumber UInt64 := ⟨fun n => (n.toNat : Int), 0⟩

structure Bounded (α : Type) where
  width : Width
  value : α
  lower : α
  upper : α
deriving DecidableEq, Repr, Inhabited

namespace Bounded

variable {α : Type} [WholeNumber α]

def unbounded (width : Width) (value : α) : Bounded α :=
  ⟨width, value, WholeNumber.zero, WholeNumber.zero⟩

def number (b : Bounded α) : Int := WholeNumber.toInt b.value

def hasBounds (b : Bounded α) : Bool :=
  WholeNumber.toInt b.lower ≠ 0 || WholeNumber.toInt b.upper ≠ 0

/-- The limits of the width, narrowed to the bounds if there are any. -/
def range (b : Bounded α) : Int × Int :=
  let (low, high) := b.width.limits
  if b.hasBounds then
    (max low (WholeNumber.toInt b.lower), min high (WholeNumber.toInt b.upper))
  else (low, high)

end Bounded

end ValueTree
