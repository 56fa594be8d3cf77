import ValueTree.Payload.Json
import ValueTree.Schema

/-!
# Values and schemas in JSON
-/

namespace ValueTree

def Id.toJson (i : Id) : Json := .text i.toText

def Id.fromJson : Json.Reader Id := do
  match Id.parse (← .string) with
  | .ok id => pure id
  | .error fault => .failUnplaced (.meaningless ("invalid value id: " ++ fault.message))

def Access.toJson : Access → Json
  | .readOnly => .text "read_only"
  | .readWrite => .text "read_write"

def Access.fromJson : Json.Reader Access :=
  .choice [("read_only", .readOnly), ("read_write", .readWrite)]

namespace Value

def toJson (v : Value) : Json :=
  .object [("id", v.id.toJson), ("access", v.access.toJson), ("data", v.payload.toJson)]

def members : Json.Layout [Id, Access, Payload] :=
  .need "id" Id.fromJson (.may "access" Access.fromJson .readWrite
    (.need "data" Payload.fromJson .nil))

def fromJson : Json.Reader Value := do
  let (id, access, payload, _) ← members.record "struct Value"
  pure { id, access, payload }

end Value

namespace TemplateEntry

def toJson (e : TemplateEntry) : Json :=
  .object [("id", e.id.toJson), ("data", e.payload.toJson), ("access", e.access.toJson)]

def members : Json.Layout [Id, Payload, Access] :=
  .need "id" Id.fromJson (.need "data" Payload.fromJson
    (.may "access" Access.fromJson .readWrite .nil))

def fromJson : Json.Reader TemplateEntry := do
  let (id, payload, access, _) ← members.record "struct TemplateEntry"
  pure { id, payload, access }

end TemplateEntry

namespace Schema

def toJson (s : Schema) : Json :=
  .object [("id", s.id.toJson), ("order", s.order.toJson),
    ("template", .array (s.template.map TemplateEntry.toJson))]

def members : Json.Layout [Id, KeyOrder, List TemplateEntry] :=
  .need "id" Id.fromJson (.need "order" KeyOrder.fromJson
    (.may "template" (.listOf TemplateEntry.fromJson) [] .nil))

def fromJson : Json.Reader Schema := do
  let (id, order, template, _) ← members.record "struct ContainerSchema"
  pure { id, order, template }

end Schema

end ValueTree
