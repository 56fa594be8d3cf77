import ValueTree.Fragment
import ValueTree.Value.Json

/-!
# Fragments as documents

A fragment is written as a JSON document; whatever may be missing has a default.
-/

namespace ValueTree

namespace ValueDecl

def members : Json.Layout [Id, Access, Payload] :=
  .need "id" Id.fromJson (.may "access" Access.fromJson .readWrite
    (.may "data" Payload.fromJson .unset .nil))

def fromJson : Json.Reader ValueDecl := do
  let (id, access, payload, _) ← members.record "struct ValueDecl"
  pure { id, access, payload }

def toJson (d : ValueDecl) : Json :=
  .object [("id", d.id.toJson), ("access", d.access.toJson), ("data", d.payload.toJson)]

end ValueDecl

namespace ContainerDecl

def members : Json.Layout [Id, Bool, List ValueDecl] :=
  .need "id" Id.fromJson (.may "ordered" .bool true
    (.may "template" (.listOf ValueDecl.fromJson) [] .nil))

def fromJson : Json.Reader ContainerDecl := do
  let (id, ordered, template, _) ← members.record "struct ContainerDecl"
  pure { id, ordered, template }

def toJson (d : ContainerDecl) : Json :=
  .object [("id", d.id.toJson), ("ordered", .bool d.ordered),
    ("template", .array (d.template.map ValueDecl.toJson))]

end ContainerDecl

namespace Fragment

def members : Json.Layout [List ContainerDecl, List ValueDecl] :=
  .may "containers" (.listOf ContainerDecl.fromJson) []
    (.may "values" (.listOf ValueDecl.fromJson) [] .nil)

def fromJson : Json.Reader Fragment := do
  let (containers, values, _) ← members.record "struct Fragment"
  pure { containers, values }

def toJson (f : Fragment) : Json :=
  .object [("containers", .array (f.containers.map ContainerDecl.toJson)),
    ("values", .array (f.values.map ValueDecl.toJson))]

def parse (text : String) : Except Json.Fault Fragment := Json.parse fromJson text

end Fragment

end ValueTree
