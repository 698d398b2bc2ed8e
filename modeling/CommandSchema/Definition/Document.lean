import CommandSchema.Definition
import CommandSchema.Document.Encoding

/-!
# Definitions as documents
-/

namespace CommandSchema

/-- A declared field as a document. Only `kind` and `options` are always there. -/
def FieldDefinition.document (d : FieldDefinition) : Document :=
  .record <|
    [("kind", .text d.kind.word), ("options", .list (d.options.map .text))] ++
    Document.member "name" (d.name.map .text) ++
    Document.member "type" (d.type.map fun t => .text t.name) ++
    Document.member "default" (d.default.map Value.document) ++
    Document.member "required" (d.required.map .bool) ++
    Document.member "description" (d.description.map .text)

/-- A declared schema as a document. -/
def SchemaDefinition.document (d : SchemaDefinition) : Document :=
  .record <|
    [("name", .text d.name)] ++
    Document.member "description" (d.description.map .text) ++
    [("fields", .list (d.fields.map FieldDefinition.document))]

/-- The contents of a definition file as a document. -/
def DefinitionFile.document (d : DefinitionFile) : Document :=
  .record [("schemas", .list (d.schemas.map SchemaDefinition.document))]

end CommandSchema
