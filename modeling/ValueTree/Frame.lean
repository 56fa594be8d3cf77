import ValueTree.Cbor

/-!
# Frames

A frame is a length of four bytes and as many bytes of content. A marked frame has one more byte in
front, which no plain length of an acceptable size starts with, so the first byte tells the two
apart.
-/

namespace ValueTree

inductive Framing
  /-- The length alone. -/
  | plain
  /-- A marker before the length. -/
  | marked
deriving DecidableEq, Repr, Inhabited

namespace Framing

def marker : UInt8 := 0xA7

def headerLength : Framing → Nat
  | plain => 4
  | marked => 5

def ofFirst (b : UInt8) : Framing := if b = marker then marked else plain

def header (f : Framing) (length : Nat) : List UInt8 :=
  match f with
  | plain => Cbor.bigEndian 4 length
  | marked => marker :: Cbor.bigEndian 4 length

/-- A frame around some content of less than four gigabytes. -/
def frame (f : Framing) (content : List UInt8) : List UInt8 := f.header content.length ++ content

end Framing

/-! ## Taking frames off a stream -/

/-- The bytes that have come in and are not yet part of a frame taken. -/
structure Deframer where
  buffer : List UInt8 := []
  /-- The longest content that is taken. -/
  limit : Nat := 16777216
deriving DecidableEq, Repr, Inhabited

/-- What a look at the front of the buffer finds. -/
inductive Deframed
  /-- The frame at the front is not complete. -/
  | pending
  | frame (framing : Framing) (content : List UInt8)
  | oversized (length limit : Nat)
deriving DecidableEq, Repr

namespace Deframer

def feed (d : Deframer) (bytes : List UInt8) : Deframer := { d with buffer := d.buffer ++ bytes }

def buffered (d : Deframer) : Nat := d.buffer.length

/-- The length that a header announces. -/
def announced (f : Framing) (buffer : List UInt8) : Nat :=
  Cbor.ofBigEndian ((buffer.drop (f.headerLength - 4)).take 4)

/-- Takes the frame at the front. Behind a frame that is too long nothing can be found, so it takes
the whole buffer with it. -/
def next (d : Deframer) : Deframed × Deframer :=
  match d.buffer with
  | [] => (.pending, d)
  | first :: _ =>
    let framing := Framing.ofFirst first
    let length := announced framing d.buffer
    let start := framing.headerLength
    if d.buffer.length < start then (.pending, d)
    else if d.limit < length then (.oversized length d.limit, { d with buffer := [] })
    else if d.buffer.length < start + length then (.pending, d)
    else
      (.frame framing ((d.buffer.drop start).take length),
        { d with buffer := d.buffer.drop (start + length) })

end Deframer

end ValueTree
