import ValueTree.Cbor

/-!
# Passing over an item

An item whose content does not matter still has to be well formed: texts are whole characters,
simple values are known ones, and nothing nests too deep. A tag counts as one level, unless it makes
a big number of a few bytes; such a number has to fit into sixteen bytes with its sign.
-/

namespace ValueTree.Cbor

/-- False, true, null and undefined. -/
def isKnownSimple (n : Nat) : Bool := 20 ≤ n && n ≤ 23

/-- How many bytes a big number may have to count as a number here. -/
def bigNatLimit : Nat := 16

/-- The first number that does not fit into sixteen bytes with a sign. -/
def signedLimit : Nat := 170141183460469231731687303715884105728

/-- The few bytes of a big number after its tag, and what follows them. -/
def bigNatAfter? (tag : Nat) (bytes : List UInt8) : Option (Nat × List UInt8) :=
  if tag ≠ 2 && tag ≠ 3 then none
  else
    match readHead bytes with
    | some (.bytes (some length), rest) =>
      if length ≤ bigNatLimit && length ≤ rest.length then
        some (ofBigEndian (rest.take length), rest.drop length)
      else none
    | _ => none

mutual

/-- What follows the item at the front. The fuel bounds the count of heads, `depth` the nesting. -/
def skipItem : (fuel depth : Nat) → List UInt8 → Option (List UInt8)
  | 0, _, _ => none
  | fuel + 1, depth, bytes =>
    match readHead bytes with
    | none => none
    | some (head, rest) =>
      match head, depth with
      | .unsigned _, _ | .negative _, _ | .float, _ => some rest
      | .simple n, _ => if isKnownSimple n then some rest else none
      | .bytes length, _ => (bytesAfter length rest).map (·.2)
      | .text length, _ => (textAfter length rest).map (·.2)
      | .array (some count), depth + 1 => skipItems fuel depth count rest
      | .array none, depth + 1 => skipOpen fuel depth 1 rest
      | .map (some count), depth + 1 => skipItems fuel depth (2 * count) rest
      | .map none, depth + 1 => skipOpen fuel depth 2 rest
      | .tag n, depth =>
        match bigNatAfter? n rest, depth with
        | some (big, rest), _ => if n = 3 && signedLimit ≤ big then none else some rest
        | none, depth + 1 => skipItem fuel depth rest
        | none, 0 => none
      | .array _, 0 | .map _, 0 | .stop, _ => none

def skipItems : (fuel depth count : Nat) → List UInt8 → Option (List UInt8)
  | _, _, 0, bytes => some bytes
  | 0, _, _ + 1, _ => none
  | fuel + 1, depth, count + 1, bytes =>
    match skipItem fuel depth bytes with
    | some rest => skipItems fuel depth count rest
    | none => none

/-- Groups of items up to a stop, which may only stand before a group. -/
def skipOpen : (fuel depth group : Nat) → List UInt8 → Option (List UInt8)
  | 0, _, _, _ => none
  | fuel + 1, depth, group, bytes =>
    match readHead bytes with
    | some (.stop, rest) => some rest
    | _ =>
      match skipItems fuel depth group bytes with
      | some rest => skipOpen fuel depth group rest
      | none => none

end

/-- Every head takes a byte, and so does every item. -/
def skip (depth : Nat) (bytes : List UInt8) : Option (List UInt8) :=
  skipItem (2 * bytes.length + 2) depth bytes

end ValueTree.Cbor
