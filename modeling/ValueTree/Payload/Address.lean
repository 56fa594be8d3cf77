import ValueTree.Payload.Octets
import ValueTree.Text.Hex

/-!
# Address text

The written forms of internet addresses, alone and with the number of a service. Reading takes a
list of characters and gives back what is left, so that an address can stand inside a longer text.
-/

namespace ValueTree

/-! ## Numbers -/

namespace Digits

def decimalValue? (c : Char) : Option Nat :=
  if '0' ≤ c ∧ c ≤ '9' then some (c.toNat - 48) else none

/-- The digits at the front, and the rest. -/
def split (value? : Char → Option Nat) : List Char → List Nat × List Char
  | [] => ([], [])
  | c :: cs =>
    match value? c with
    | some d =>
      let (ds, rest) := split value? cs
      (d :: ds, rest)
    | none => ([], c :: cs)

def number (base : Nat) (ds : List Nat) : Nat := ds.foldl (fun n d => base * n + d) 0

/-- A decimal number up to `limit`; leading zeros are allowed. -/
def decimal? (limit : Nat) (cs : List Char) : Option (Nat × List Char) :=
  let (ds, rest) := split decimalValue? cs
  if ds.isEmpty || limit < number 10 ds then none else some (number 10 ds, rest)

end Digits

/-! ## Four octets -/

namespace Ipv4

/-- One to three digits, at most 255, and no leading zero. -/
def octet? (cs : List Char) : Option (UInt8 × List Char) :=
  let (ds, rest) := Digits.split Digits.decimalValue? cs
  let n := Digits.number 10 ds
  if ds.isEmpty || 3 < ds.length || 255 < n || (ds.head? = some 0 && 1 < ds.length) then none
  else some (n.toUInt8, rest)

/-- An octet after a dot. -/
def dotOctet? : List Char → Option (UInt8 × List Char)
  | '.' :: cs => octet? cs
  | _ => none

def read? (cs : List Char) : Option (Ipv4 × List Char) := do
  let (a, cs) ← octet? cs
  let (b, cs) ← dotOctet? cs
  let (c, cs) ← dotOctet? cs
  let (d, cs) ← dotOctet? cs
  some (⟨[a, b, c, d], rfl⟩, cs)

def parse? (text : String) : Option Ipv4 :=
  match read? text.toList with
  | some (ip, []) => some ip
  | _ => none

def toText (ip : Ipv4) : String :=
  String.intercalate "." (ip.bytes.map fun b => toString b.toNat)

def localhost : Ipv4 := ⟨[127, 0, 0, 1], rfl⟩

end Ipv4

/-! ## Eight groups -/

namespace Ipv6

/-- One to four hexadecimal digits. -/
def group? (cs : List Char) : Option (Nat × List Char) :=
  let (ds, rest) := Digits.split Hex.digitValue? cs
  if ds.isEmpty || 4 < ds.length then none else some (Digits.number 16 ds, rest)

/-- The text after a group's separator; the first group has none. -/
def afterColon? (first : Bool) (cs : List Char) : Option (List Char) :=
  if first then some cs
  else match cs with
    | ':' :: rest => some rest
    | _ => none

/-- A dotted address in the place of two groups. -/
def dotted? (cs : List Char) : Option (List Nat × List Char) :=
  match Ipv4.read? cs with
  | some (ip, rest) =>
    match ip.bytes.map UInt8.toNat with
    | [a, b, c, d] => some ([256 * a + b, 256 * c + d], rest)
    | _ => none
  | none => none

/-- Up to `limit` groups, the rest, and whether a dotted address ended them. -/
def groups : (limit : Nat) → (first : Bool) → List Char → List Nat × List Char × Bool
  | 0, _, cs => ([], cs, false)
  | limit + 1, first, cs =>
    match afterColon? first cs with
    | none => ([], cs, false)
    | some inner =>
      match (if limit = 0 then none else dotted? inner) with
      | some (pair, rest) => (pair, rest, true)
      | none =>
        match group? inner with
        | none => ([], cs, false)
        | some (n, rest) =>
          let (ns, rest, ended) := groups limit false rest
          (n :: ns, rest, ended)

def groupBytes (n : Nat) : List UInt8 := [(n / 256).toUInt8, (n % 256).toUInt8]

def ofGroups? (ns : List Nat) : Option Ipv6 := Octets.ofList? (ns.flatMap groupBytes)

/-- Eight groups, or fewer around a double colon that stands for at least one zero group. -/
def read? (cs : List Char) : Option (Ipv6 × List Char) :=
  let (front, rest, ended) := groups 8 true cs
  if front.length = 8 then (ofGroups? front).map (·, rest)
  else if ended then none
  else
    match rest with
    | ':' :: ':' :: rest =>
      let (back, rest, _) := groups (7 - front.length) true rest
      let zeros := List.replicate (8 - front.length - back.length) 0
      (ofGroups? (front ++ zeros ++ back)).map (·, rest)
    | _ => none

def parse? (text : String) : Option Ipv6 :=
  match read? text.toList with
  | some (ip, []) => some ip
  | _ => none

def toGroups : List UInt8 → List Nat
  | a :: b :: rest => (256 * a.toNat + b.toNat) :: toGroups rest
  | _ => []

/-- How many zero groups stand at the front. -/
def zeroRun (ns : List Nat) : Nat := (ns.takeWhile (· = 0)).length

/-- The longest run of zero groups as its start and length; of equal runs the first. -/
def longestRun (ns : List Nat) : Nat × Nat :=
  (List.range ns.length).foldl
    (fun best start =>
      let length := zeroRun (ns.drop start)
      if best.2 < length then (start, length) else best)
    (0, 0)

def groupsText (ns : List Nat) : String :=
  String.intercalate ":" (ns.map fun n => String.ofList (Hex.digits n))

/-- A run of two or more zero groups is left out. An address that carries four octets behind
ten zero bytes and two full ones shows them with dots. -/
def toText (ip : Ipv6) : String :=
  let ns := toGroups ip.bytes
  if ns.take 6 = [0, 0, 0, 0, 0, 0xffff] then
    "::ffff:" ++ String.intercalate "." ((ip.bytes.drop 12).map fun b => toString b.toNat)
  else
    let (start, length) := longestRun ns
    if 1 < length then groupsText (ns.take start) ++ "::" ++ groupsText (ns.drop (start + length))
    else groupsText ns

end Ipv6

/-! ## Endpoint addresses -/

/-- An internet address with the number of a service; a scope of zero is not written. -/
inductive SocketAddress
  | v4 (ip : Ipv4) (service : Nat)
  | v6 (ip : Ipv6) (scope service : Nat)
deriving DecidableEq, Repr

namespace SocketAddress

def service? : List Char → Option Nat
  | ':' :: cs =>
    match Digits.decimal? 65535 cs with
    | some (service, []) => some service
    | _ => none
  | _ => none

/-- The number after a percent sign, or zero. -/
def scope? : List Char → Option (Nat × List Char)
  | '%' :: cs => Digits.decimal? 4294967295 cs
  | cs => some (0, cs)

def parse? (text : String) : Option SocketAddress :=
  match text.toList with
  | '[' :: cs => do
    let (ip, cs) ← Ipv6.read? cs
    let (scope, cs) ← scope? cs
    match cs with
    | ']' :: cs => (service? cs).map (v6 ip scope)
    | _ => none
  | cs => do
    let (ip, cs) ← Ipv4.read? cs
    (service? cs).map (v4 ip)

def toText : SocketAddress → String
  | v4 ip service => ip.toText ++ ":" ++ toString service
  | v6 ip scope service =>
    let zone := if scope = 0 then "" else "%" ++ toString scope
    "[" ++ ip.toText ++ zone ++ "]:" ++ toString service

end SocketAddress

end ValueTree
