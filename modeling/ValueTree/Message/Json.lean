import ValueTree.Message
import ValueTree.Value.Json

/-!
# Messages in JSON

Tokens are hexadecimal texts where people read them. Where the same form stands inside a program's
data they are numbers, so reading takes the form of tokens as a parameter.
-/

namespace ValueTree

namespace Token

def toJson (t : Token) : Json := .text t.toText

def ofText? (text : String) : Option Token :=
  if text.length = 16 then (Hex.number? text.toList).map fun n => ⟨n.toUInt64⟩ else none

def fromJson : Json.Reader Token :=
  .stringAs "a token" fun text =>
    match ofText? text with
    | some token => .ok token
    | none => .error (.meaningless "invalid token")

/-- A token as its number. -/
def numberFromJson : Json.Reader Token := mk <$> .uint64

end Token

namespace Update

def toJson : Update → Json
  | set value => .variant "set" (.object [("value", value.toJson)])
  | addKey container key =>
    .variant "add_to_container" (.object [("container", container.toJson), ("key", .text key)])
  | removeKey container key =>
    .variant "remove_from_container"
      (.object [("container", container.toJson), ("key", .text key)])

def setMembers : Json.Layout [Value] := .need "value" Value.fromJson .nil

def keyMembers : Json.Layout [Id, String] :=
  .need "container" Id.fromJson (.need "key" .string .nil)

def keyFromJson (title : String) (make : Id → String → Update) : Json.Reader Update := do
  let (container, key, _) ← keyMembers.record title
  pure (make container key)

def jsonCases : List (String × Json.Content Update) := [
  ("set", .fields do
    let (value, _) ← setMembers.record "struct Set"
    pure (set value)),
  ("add_to_container", .fields (keyFromJson "struct AddToContainer" addKey)),
  ("remove_from_container",
    .fields (keyFromJson "struct RemoveFromContainer" removeKey))]

def fromJson : Json.Reader Update := .variant jsonCases

end Update

namespace Status

def toJson : Status → Json
  | success => .text "success"
  | notFound => .text "not_found"
  | other code => .variant "other" (.nat code.toNat)

def fromJson : Json.Reader Status :=
  .variant [("success", .nothing success), ("not_found", .nothing notFound),
    ("other", .value (other <$> .uint32))]

end Status

namespace Message

def sequenceJson (sequence : UInt32) : String × Json := ("sequence_no", .nat sequence.toNat)

def idsJson (ids : List Id) : String × Json := ("ids", .array (ids.map Id.toJson))

def valuesJson (values : List Value) : String × Json := ("values", .array (values.map Value.toJson))

def toJson : Message → Json
  | subscribe sequence ids =>
    .variant "subscribe" (.object [sequenceJson sequence, idsJson ids])
  | unsubscribe sequence => .variant "unsubscribe" (.object [sequenceJson sequence])
  | valueChanged updates =>
    .variant "value_changed" (.object [("values", .array (updates.map Update.toJson))])
  | valueRemoved ids tokens =>
    .variant "value_removed" (.object [idsJson ids, ("tokens", .array (tokens.map Token.toJson))])
  | multiGet sequence ids =>
    .variant "multi_get" (.object [sequenceJson sequence, idsJson ids])
  | multiSet sequence values =>
    .variant "multi_set" (.object [sequenceJson sequence, valuesJson values])
  | result sequence status values =>
    .variant "result"
      (.object [sequenceJson sequence, ("status", status.toJson), valuesJson values])
  | syncCompleted => .text "sync_completed"

/-- The sequence number and what is asked about. -/
def requestMembers {α : Type} (name : String) (content : Json.Reader α) : Json.Layout [UInt32, α] :=
  .need "sequence_no" .uint32 (.need name content .nil)

def sequenceMembers : Json.Layout [UInt32] := .need "sequence_no" .uint32 .nil

def changeMembers : Json.Layout [List Update] := .need "values" (.listOf Update.fromJson) .nil

def removalMembers (token : Json.Reader Token) : Json.Layout [List Id, List Token] :=
  .need "ids" (.listOf Id.fromJson) (.need "tokens" (.listOf token) .nil)

def resultMembers : Json.Layout [UInt32, Status, List Value] :=
  .need "sequence_no" .uint32 (.need "status" Status.fromJson
    (.need "values" (.listOf Value.fromJson) .nil))

/-- A request with its sequence number. -/
def requestFromJson {α : Type} (title name : String) (content : Json.Reader α)
    (make : UInt32 → α → Message) : Json.Reader Message := do
  let (sequence, asked, _) ← (requestMembers name content).record title
  pure (make sequence asked)

def jsonCases (token : Json.Reader Token) : List (String × Json.Content Message) := [
  ("subscribe", .fields
    (requestFromJson "struct Subscribe" "ids" (.listOf Id.fromJson) subscribe)),
  ("unsubscribe", .fields do
    let (sequence, _) ← sequenceMembers.record "struct Unsubscribe"
    pure (unsubscribe sequence)),
  ("value_changed", .fields do
    let (updates, _) ← changeMembers.record "struct ValueChanged"
    pure (valueChanged updates)),
  ("value_removed", .fields do
    let (ids, tokens, _) ← (removalMembers token).record "struct ValueRemoved"
    pure (valueRemoved ids tokens)),
  ("multi_get", .fields
    (requestFromJson "struct MultiGet" "ids" (.listOf Id.fromJson) multiGet)),
  ("multi_set", .fields
    (requestFromJson "struct MultiSet" "values" (.listOf Value.fromJson)
      multiSet)),
  ("result", .fields do
    let (sequence, status, values, _) ← resultMembers.record "struct Result"
    pure (result sequence status values)),
  ("sync_completed", .nothing syncCompleted)]

def fromJson (token : Json.Reader Token) : Json.Reader Message := .variant (jsonCases token)

end Message

end ValueTree
