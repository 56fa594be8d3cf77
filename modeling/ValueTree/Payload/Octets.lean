/-!
# Octets

A fixed number of bytes: internet addresses, hardware addresses and device identifiers.
-/

namespace ValueTree

structure Octets (n : Nat) where
  bytes : List UInt8
  length_eq : bytes.length = n
deriving DecidableEq, Repr

namespace Octets

variable {n : Nat}

def ofList? (bytes : List UInt8) : Option (Octets n) :=
  if h : bytes.length = n then some ⟨bytes, h⟩ else none

def isZero (o : Octets n) : Bool := o.bytes.all (· = 0)

end Octets

/-- Four octets. -/
abbrev Ipv4 := Octets 4

/-- Sixteen octets. -/
abbrev Ipv6 := Octets 16

/-- A hardware address. -/
abbrev Eui48 := Octets 6

/-- A unique device identifier. -/
abbrev Udid := Octets 16

end ValueTree
