import CommandSchema.Schema.Consistency
import CommandSchema.Text.Blank

/-!
# Schemas

A schema is a name and a list of fields without problems. Looking up a field needs no index: a
consistent list has at most one field for each form, so the first match is the only one.
-/

namespace CommandSchema

/-- Whether a schema's name holds nothing but blanks. -/
def isBlankName (name : String) : Bool :=
  name.toList.all Text.isBlank

/-- A consistent description of what a command line may hold. -/
structure Schema where
  name : String
  description : Option String
  fields : List Field
  name_not_blank : isBlankName name = false
  consistent : problems fields = []
  deriving DecidableEq

namespace Schema

/-- The schema with the given fields, or the first problem that there is. -/
def build (name : String) (description : Option String) (fields : List Field) :
    Except SchemaProblem Schema :=
  if hn : isBlankName name = false then
    match hp : problems fields with
    | [] => .ok ⟨name, description, fields, hn, hp⟩
    | p :: _ => .error p
  else .error .emptySchemaName

/-- The number of fields. -/
def size (s : Schema) : Nat :=
  s.fields.length

/-- The fields with their positions, in declaration order. -/
def entries (s : Schema) : List (Nat × Field) :=
  s.fields.zipIdx.map fun (f, i) => (i, f)

/-- The field with a given name. -/
def field? (s : Schema) (name : String) : Option Field :=
  s.fields.find? fun f => f.name == name

/-- The field with a given short form, and its position. -/
def resolveShort (s : Schema) (c : Char) : Option (Nat × Field) :=
  s.entries.find? fun (_, f) => f.matchesShort c

/-- The field with a given long form, without dashes, and its position. Only the whole form counts. -/
def resolveLong (s : Schema) (long : String) : Option (Nat × Field) :=
  s.entries.find? fun (_, f) => f.matchesLong long

/-- The field that takes the first positional token, if there is one, then the one that takes the
rest. -/
def positionalEntries (s : Schema) : List (Nat × Field) :=
  (s.entries.find? fun (_, f) => f.kind matches .positional _).toList ++
    (s.entries.find? fun (_, f) => f.kind matches .positionalList).toList

end Schema

end CommandSchema
