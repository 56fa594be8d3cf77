import ValueTree.Payload.Octets
import ValueTree.Text.Hex

/-!
# Device identifier text

The written forms of unique device identifiers: plain, hyphenated, hyphenated in braces, or
hyphenated after `urn:uuid:`. A hyphen parts the digits into groups.
-/

namespace ValueTree.Udid

/-! ## Groups -/

/-- How many digits each group has. -/
def groupLengths : List Nat := [8, 4, 4, 4, 12]

/-- Digits in groups, each but the first behind a hyphen. -/
def ungrouped? : List Nat → List Char → Option (List Char)
  | [], cs => if cs.isEmpty then some [] else none
  | [length], cs => if cs.length = length then some cs else none
  | length :: lengths, cs =>
    match cs.drop length with
    | '-' :: rest => (ungrouped? lengths rest).map (cs.take length ++ ·)
    | _ => none

/-- Sixteen bytes as digits in groups. -/
def hyphenated? (cs : List Char) : Option Udid :=
  ((ungrouped? groupLengths cs).bind Hex.decodeChars).bind Octets.ofList?

/-! ## Faults -/

/-- Why a text is no identifier. -/
inductive Fault
  /-- The place counts the bytes before the character. -/
  | character (c : Char) (place : Nat)
  /-- Without hyphens and anything around them there have to be 32 digits. -/
  | length (found : Nat)
  | groupCount (found : Nat)
  | groupLength (group expected found : Nat)
deriving DecidableEq, Repr

def Fault.message : Fault → String
  | .character c place =>
    "invalid character: found `" ++ String.ofList [c] ++ "` at " ++ toString place
  | .length found => "invalid length: found " ++ toString found
  | .groupCount found => "invalid group count: expected 5, found " ++ toString found
  | .groupLength group expected found =>
    "invalid group length in group " ++ toString group ++ ": expected " ++ toString expected ++
      ", found " ++ toString found

/-! ## Forms -/

/-- What stands before the digits of a name, in any case. -/
def scheme : List Char := ['u', 'r', 'n', ':', 'u', 'u', 'i', 'd', ':']

/-- What stands before the digits, and the digits. -/
structure Parts where
  before : List Char
  digits : List Char

namespace Parts

/-- Braces or a scheme around the digits, or nothing. -/
def ofChars (cs : List Char) : Parts :=
  if cs.take 1 = ['\x7b'] && cs.drop 1 ≠ [] && cs.getLast? = some '\x7d' then
    ⟨['\x7b'], (cs.drop 1).dropLast⟩
  else if (cs.take scheme.length).map Char.toLower = scheme then
    ⟨scheme, cs.drop scheme.length⟩
  else ⟨[], cs⟩

/-- Whether nothing stands around the digits. -/
def alone (p : Parts) : Bool := p.before.isEmpty

end Parts

/-- The bytes of 32 digits, and of those with four hyphens. -/
def plainSize : Nat := 32

def hyphenatedSize : Nat := 36

/-- The longest form, with a scheme. -/
def longestSize : Nat := hyphenatedSize + scheme.length

/-! ## Reading -/

/-- The first character that is no digit and no hyphen, and the bytes before it. -/
def strange? : (before : Nat) → List Char → Option (Char × Nat)
  | _, [] => none
  | before, c :: cs =>
    if c = '-' || (Hex.digitValue? c).isSome then strange? (before + c.utf8Size) cs
    else some (c, before)

/-- What is wrong with groups of digits, if they have a wrong count or length. The length of the
last group is what the whole text has behind the place where that group begins. -/
def groupFault (cs : List Char) (found : List Nat) : Fault :=
  if found.length ≠ groupLengths.length then .groupCount found.length
  else
    let groups := (groupLengths.zip found).zipIdx.take 4
    match groups.find? fun ((expected, found), _) => expected ≠ found with
    | some ((expected, found), group) => .groupLength group expected found
    | none => .groupLength 4 12 (cs.length - 24)

/-- What is wrong with a text that is none of the forms and not longer than all of them. -/
def faultIn (cs : List Char) : Fault :=
  let parts := Parts.ofChars cs
  match strange? parts.before.length parts.digits with
  | some (c, place) => .character c place
  | none =>
    let found := ((String.ofList parts.digits).splitOn "-").map String.length
    if found.length = 1 && parts.alone then .length cs.length else groupFault cs found

/-- A fault in hyphenated digits has its place among them, whatever stands around. -/
def parse (text : String) : Except Fault Udid :=
  let cs := text.toList
  let parts := Parts.ofChars cs
  let size := text.utf8ByteSize
  let digitsSize := (String.ofList parts.digits).utf8ByteSize
  let reading : Option Udid × List Char :=
    if size = plainSize then ((Hex.decodeChars cs).bind Octets.ofList?, cs)
    else if size = hyphenatedSize then (hyphenated? cs, cs)
    else if digitsSize = hyphenatedSize then (hyphenated? parts.digits, parts.digits)
    else (none, cs)
  match reading with
  | (some identifier, _) => .ok identifier
  | (none, blamed) =>
    .error (if longestSize < size then .length size else faultIn blamed)

def toText (u : Udid) : String :=
  let cs := u.bytes.flatMap Hex.byteDigits
  String.ofList (cs.take 8 ++ '-' :: ((cs.drop 8).take 4 ++ '-' :: ((cs.drop 12).take 4 ++ '-' ::
    ((cs.drop 16).take 4 ++ '-' :: cs.drop 20))))

end ValueTree.Udid
