import CommandSchema.Value

/-!
# Definitions

Schemas as they are declared in a definition file: the fields of a schema list the spellings of
their options, and a single bare name declares a positional field.
-/

namespace CommandSchema

/-- How a defined field behaves. -/
inductive DefinitionKind
  | flag
  | count
  /-- An option with a value, or the first positional token. -/
  | arg
  /-- The positional tokens that are left. -/
  | rest
  deriving DecidableEq, Repr

namespace DefinitionKind

/-- The word for a kind. -/
def word : DefinitionKind → String
  | flag => "flag"
  | count => "count"
  | arg => "arg"
  | rest => "rest"

/-- All kinds under their words. -/
def words : List (String × DefinitionKind) :=
  [flag, count, arg, rest].map fun k => (k.word, k)

end DefinitionKind

/-- One field as it is declared. -/
structure FieldDefinition where
  kind : DefinitionKind
  /-- The spellings, with their dashes, or one bare name. -/
  options : List String
  name : Option String
  type : Option ValueType
  default : Option Value
  required : Option Bool
  description : Option String
  deriving DecidableEq, Repr

/-- One schema as it is declared. -/
structure SchemaDefinition where
  name : String
  description : Option String
  fields : List FieldDefinition
  deriving DecidableEq, Repr

/-- The contents of a definition file. -/
structure DefinitionFile where
  schemas : List SchemaDefinition
  deriving DecidableEq, Repr

namespace FieldDefinition

/-- What a field is called where its definition is wrong: its name, else its first spelling. -/
def label (d : FieldDefinition) : String :=
  (d.name <|> d.options.head?).getD "<unnamed>"

end FieldDefinition

end CommandSchema
