import ValueTree.Message
import ValueTree.Payload.Cbor

/-!
# Messages in CBOR

Ids are texts and tokens are numbers. Reading takes the first item and leaves what follows it.
-/

namespace ValueTree

open Cbor

def Id.toCbor (i : Id) : List UInt8 := writeText i.toText

def Id.fromCbor : Reader Id := do
  match Id.parse (← Reader.string) with
  | .ok id => pure id
  | .error _ => Reader.fail

def Access.toCbor : Access → List UInt8
  | .readOnly => writeText "read_only"
  | .readWrite => writeText "read_write"

def Access.fromCbor : Reader Access :=
  variant [("read_only", pure .readOnly), ("read_write", pure .readWrite)]

namespace Value

def toCbor (v : Value) : List UInt8 :=
  writeRecord [("id", v.id.toCbor), ("access", v.access.toCbor), ("data", v.payload.toCbor)]

def layout : Layout [Id, Access, Payload] :=
  .field "id" Id.fromCbor (.field "access" Access.fromCbor (.field "data" Payload.fromCbor .nil))

def fromCbor : Reader Value := do
  let (id, access, payload, _) ← layout.record
  let id ← Reader.ofOption id
  let payload ← Reader.ofOption payload
  pure { id, access := access.getD .readWrite, payload }

end Value

namespace Update

def keyCbor (container : Id) (key : String) : List UInt8 :=
  writeRecord [("container", container.toCbor), ("key", writeText key)]

def toCbor : Update → List UInt8
  | set value => writeVariant "set" (writeRecord [("value", value.toCbor)])
  | addKey container key => writeVariant "add_to_container" (keyCbor container key)
  | removeKey container key => writeVariant "remove_from_container" (keyCbor container key)

def setLayout : Layout [Value] := .field "value" Value.fromCbor .nil

def keyLayout : Layout [Id, String] :=
  .field "container" Id.fromCbor (.field "key" Reader.string .nil)

def keyFrom (make : Id → String → Update) : Reader Update := do
  let (container, key, _) ← keyLayout.content
  pure (make (← Reader.ofOption container) (← Reader.ofOption key))

def fromCbor : Reader Update := variant [
  ("set", do
    let (value, _) ← setLayout.content
    pure (set (← Reader.ofOption value))),
  ("add_to_container", keyFrom addKey),
  ("remove_from_container", keyFrom removeKey)]

end Update

namespace Status

def toCbor : Status → List UInt8
  | success => writeText "success"
  | notFound => writeText "not_found"
  | other code => writeVariant "other" (writeNat code.toNat)

def fromCbor : Reader Status := variant [
  ("success", pure success),
  ("not_found", pure notFound),
  ("other", do pure (other (← Reader.uint32)))]

end Status

namespace Message

/-! ## Writing -/

def sequenceCbor (sequence : UInt32) : String × List UInt8 :=
  ("sequence_no", writeNat sequence.toNat)

def idsCbor (ids : List Id) : String × List UInt8 := ("ids", writeArray Id.toCbor ids)

def valuesCbor (values : List Value) : String × List UInt8 :=
  ("values", writeArray Value.toCbor values)

def tokenCbor (token : Token) : List UInt8 := writeNat token.raw.toNat

def encode : Message → List UInt8
  | subscribe sequence ids =>
    writeVariant "subscribe" (writeRecord [sequenceCbor sequence, idsCbor ids])
  | unsubscribe sequence => writeVariant "unsubscribe" (writeRecord [sequenceCbor sequence])
  | valueChanged updates =>
    writeVariant "value_changed" (writeRecord [("values", writeArray Update.toCbor updates)])
  | valueRemoved ids tokens =>
    writeVariant "value_removed"
      (writeRecord [idsCbor ids, ("tokens", writeArray tokenCbor tokens)])
  | multiGet sequence ids =>
    writeVariant "multi_get" (writeRecord [sequenceCbor sequence, idsCbor ids])
  | multiSet sequence values =>
    writeVariant "multi_set" (writeRecord [sequenceCbor sequence, valuesCbor values])
  | result sequence status values =>
    writeVariant "result"
      (writeRecord [sequenceCbor sequence, ("status", status.toCbor), valuesCbor values])
  | syncCompleted => writeText "sync_completed"

/-! ## Reading -/

def idsFromCbor : Reader (List Id) := Reader.listOf Id.fromCbor

def valuesFromCbor : Reader (List Value) := Reader.listOf Value.fromCbor

def tokenFromCbor : Reader Token := do pure ⟨← Reader.uint64⟩

def tokensFromCbor : Reader (List Token) :=
  Reader.list (fun b => some ⟨b.toUInt64⟩) tokenFromCbor

/-- A sequence number and one more field. -/
def numberedLayout {α : Type} (name : String) (read : Reader α) : Layout [UInt32, α] :=
  .field "sequence_no" Reader.uint32 (.field name read .nil)

def numberedFrom {α : Type} (name : String) (read : Reader α) (make : UInt32 → α → Message) :
    Reader Message := do
  let (sequence, a, _) ← (numberedLayout name read).content
  pure (make (← Reader.ofOption sequence) (← Reader.ofOption a))

def unsubscribeLayout : Layout [UInt32] := .field "sequence_no" Reader.uint32 .nil

def changedLayout : Layout [List Update] :=
  .field "values" (Reader.listOf Update.fromCbor) .nil

def removedLayout : Layout [List Id, List Token] :=
  .field "ids" idsFromCbor (.field "tokens" tokensFromCbor .nil)

def resultLayout : Layout [UInt32, Status, List Value] :=
  .field "sequence_no" Reader.uint32 (.field "status" Status.fromCbor
    (.field "values" valuesFromCbor .nil))

def cases : List (String × Reader Message) := [
  ("subscribe", numberedFrom "ids" idsFromCbor subscribe),
  ("unsubscribe", do
    let (sequence, _) ← unsubscribeLayout.content
    pure (unsubscribe (← Reader.ofOption sequence))),
  ("value_changed", do
    let (updates, _) ← changedLayout.content
    pure (valueChanged (← Reader.ofOption updates))),
  ("value_removed", do
    let (ids, tokens, _) ← removedLayout.content
    pure (valueRemoved (← Reader.ofOption ids) (← Reader.ofOption tokens))),
  ("multi_get", numberedFrom "ids" idsFromCbor multiGet),
  ("multi_set", numberedFrom "values" valuesFromCbor multiSet),
  ("result", do
    let (sequence, status, values, _) ← resultLayout.content
    pure (result (← Reader.ofOption sequence) (← Reader.ofOption status)
      (← Reader.ofOption values))),
  ("sync_completed", pure syncCompleted)]

def fromCbor : Reader Message := variant cases

/-- How deep a message may nest. -/
def depthLimit : Nat := 256

def decode? (bytes : List UInt8) : Option Message := (fromCbor depthLimit bytes).map (·.1)

end Message

end ValueTree
