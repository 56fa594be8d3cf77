import ValueTree.Frame
import ValueTree.Message.Cbor

/-!
# Framed messages
-/

namespace ValueTree

/-- Why a message cannot be written or taken off a stream. -/
inductive WireError
  | encoding (reason : String)
  | decoding (reason : String)
  | oversized (length limit : Nat)
deriving DecidableEq, Repr

def WireError.message : WireError → String
  | .encoding reason => "encoding failed: " ++ reason
  | .decoding reason => "decoding failed: " ++ reason
  | .oversized length limit =>
    "frame of " ++ toString length ++ " bytes exceeds maximum of " ++ toString limit

/-- A frame, unless the length of the content takes more than four bytes. -/
def Framing.frame? (f : Framing) (content : List UInt8) : Except WireError (List UInt8) :=
  if content.length < UInt32.size then .ok (f.frame content)
  else .error (.oversized content.length (UInt32.size - 1))

namespace Message

/-- The frame of a message that one can hold. -/
def framed (m : Message) (f : Framing) : List UInt8 := f.frame m.encode

/-- The frame of a message, unless the message is too long for one. -/
def frame? (m : Message) (f : Framing) : Except WireError (List UInt8) := f.frame? m.encode

end Message

namespace Deframer

/-- Takes the message at the front; `none` if it is not complete. -/
def nextMessage (d : Deframer) : Except WireError (Option Message) × Deframer :=
  match d.next with
  | (.pending, d) => (.ok none, d)
  | (.oversized length limit, d) => (.error (.oversized length limit), d)
  | (.frame _ content, d) =>
    match Message.decode? content with
    | some message => (.ok (some message), d)
    | none => (.error (.decoding "not a message"), d)

end Deframer

end ValueTree
