import CommandSchema.Document
import CommandSchema.Parse.Bindings
import CommandSchema.Schema

/-!
# Values, fields and schemas as documents
-/

namespace CommandSchema

namespace Value

/-- A value as a document; its sort is told by the form alone. -/
def document : Value → Document
  | bool b => .bool b
  | int n => .int n.toInt
  | str s => .text s
  | list items => .list (items.map .text)
  | count n => .int n.toNat

end Value

namespace FieldKind

/-- The word for a kind. -/
def word : FieldKind → String
  | flag => "flag"
  | counter => "counter"
  | valued _ => "valued"
  | positional _ => "positional_single"
  | positionalList => "positional_list"

end FieldKind

namespace Field

/-- A field as a document. Only `name`, `kind` and `required` are always there. -/
def document (f : Field) : Document :=
  .record <|
    [("name", .text f.name), ("kind", .text f.kind.word)] ++
    Document.member "type" (f.kind.type?.map fun t => .text t.name) ++
    Document.member "short" (f.short.map .letter) ++
    Document.member "long" (f.long.map .text) ++
    [("required", .bool f.required)] ++
    Document.member "default" (f.default.map Value.document) ++
    Document.member "description" (f.description.map .text)

end Field

namespace Schema

/-- A schema as a document. -/
def document (s : Schema) : Document :=
  .record <|
    [("name", .text s.name)] ++
    Document.member "description" (s.description.map .text) ++
    [("fields", .list (s.fields.map Field.document))]

end Schema

namespace Bindings

/-- A result as a document: each field's value under its name. -/
def document (b : Bindings) : Document :=
  .record (b.entries.map fun e => (e.name, e.value.document))

end Bindings

end CommandSchema
