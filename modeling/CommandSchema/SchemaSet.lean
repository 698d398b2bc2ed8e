import CommandSchema.Definition.Conversion
import CommandSchema.Definition.Format
import CommandSchema.Files.Error

/-!
# Sets of schemas

Schemas under their names, in the order in which they were added. A name is taken by the first
schema that has it.
-/

namespace CommandSchema

/-- Where the schemas of a set come from. -/
inductive Origin
  /-- A text in memory, or nothing. -/
  | inline
  | file (path : Path)
  | directory (path : Path)
  /-- Files and directories, one after the other. -/
  | multiple (origins : List Origin)

/-- Why schemas cannot be loaded or found. -/
inductive LoadError
  | io (e : IoError)
  /-- A text cannot be read as a definition file. -/
  | unreadable (format : DefinitionFormat) (fault : Fault)
  /-- The extension of a path is none of those for definitions. -/
  | unsupportedFormat (path : Path)
  /-- A field of a schema is wrong by itself. -/
  | invalidDefinition (schema label : String) (problem : DefinitionProblem)
  /-- The fields of a schema do not go together. -/
  | invalidSchema (schema : String) (problem : SchemaProblem)
  | duplicateSchema (name : String)
  | unknownSchema (name : String)
  deriving DecidableEq

namespace LoadError

/-- The wording of an error. -/
def message : LoadError → String
  | io e => "I/O error: " ++ e.message
  | unreadable format fault =>
    (match format with
      | .yaml => "YAML error: "
      | .json => "JSON error: ") ++ fault.message?.getD "malformed text"
  | unsupportedFormat path =>
    "unsupported definition file `" ++ path.text ++ "` (expected .yaml, .yml or .json)"
  | invalidDefinition schema label problem =>
    "schema `" ++ schema ++ "`, field `" ++ label ++ "`: " ++ problem.message
  | invalidSchema schema problem => "schema `" ++ schema ++ "`: " ++ problem.message
  | duplicateSchema name => "duplicate schema `" ++ name ++ "`"
  | unknownSchema name => "unknown schema `" ++ name ++ "`"

/-- The error for a problem of a declared schema. -/
def ofProblem (schema : String) : SchemaDefinitionProblem → LoadError
  | .field label problem => .invalidDefinition schema label problem
  | .schema problem => .invalidSchema schema problem

end LoadError

/-- Schemas in the order in which they were added. -/
structure SchemaSet where
  schemas : List Schema
  origin : Origin

namespace SchemaSet

/-- A set without schemas. -/
def empty (origin : Origin) : SchemaSet :=
  ⟨[], origin⟩

/-- The names of the schemas, in order. -/
def names (s : SchemaSet) : List String :=
  s.schemas.map Schema.name

/-- The number of schemas. -/
def size (s : SchemaSet) : Nat :=
  s.schemas.length

/-- The schema with a name. -/
def get? (s : SchemaSet) (name : String) : Option Schema :=
  s.schemas.find? fun schema => schema.name == name

/-- Whether a name is taken. -/
def contains (s : SchemaSet) (name : String) : Bool :=
  (s.get? name).isSome

/-- The schema with a name, which has to be there. -/
def require (s : SchemaSet) (name : String) : Except LoadError Schema :=
  match s.get? name with
  | some schema => .ok schema
  | none => .error (.unknownSchema name)

/-- The set with one more schema, whose name has to be free. -/
def insert (s : SchemaSet) (schema : Schema) : Except LoadError SchemaSet :=
  if s.contains schema.name then .error (.duplicateSchema schema.name)
  else .ok { s with schemas := s.schemas ++ [schema] }

/-- The set with one more schema, as it is declared. -/
def define (s : SchemaSet) (d : SchemaDefinition) : Except LoadError SchemaSet := do
  let schema ← d.toSchema.mapError (.ofProblem d.name)
  s.insert schema

/-- The set with the schemas of a definition file. -/
def extend (s : SchemaSet) (file : DefinitionFile) : Except LoadError SchemaSet :=
  file.schemas.foldlM define s

/-- The set with the schemas of a definition text. -/
def extendText (s : SchemaSet) (format : DefinitionFormat) (text : String) :
    Except LoadError SchemaSet := do
  s.extend (← (format.decodeFile text).mapError (.unreadable format))

/-- The schemas of a definition text. -/
def ofText (format : DefinitionFormat) (text : String) : Except LoadError SchemaSet :=
  (empty .inline).extendText format text

end SchemaSet

end CommandSchema
