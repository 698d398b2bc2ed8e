import CommandSchema.Field

/-!
# Problems of a schema

What can keep a name and a list of fields from being a schema, independent of any command line.
-/

namespace CommandSchema

/-- A reason why a name and a list of fields are no schema. -/
inductive SchemaProblem
  /-- The schema's name is blank. -/
  | emptySchemaName
  /-- A field's name is no identifier. -/
  | invalidFieldName (name : String)
  /-- Two fields share a name. -/
  | duplicateFieldName (name : String)
  /-- An option has neither a short nor a long form. -/
  | missingOptionName (name : String)
  /-- A positional field has a short or a long form. -/
  | positionalWithOptionName (name : String)
  /-- A short form is no letter or digit. -/
  | invalidShortOption (short : Char)
  /-- A long form is not made of words between dashes. -/
  | invalidLongOption (long : String)
  /-- Two fields share a short form. -/
  | duplicateShortOption (short : Char)
  /-- Two fields share a long form. -/
  | duplicateLongOption (long : String)
  /-- A second field takes the first positional token. -/
  | multiplePositionals (name : String)
  /-- A second field takes the positional tokens that are left. -/
  | multiplePositionalLists (name : String)
  /-- The field that takes the first positional token is declared after the positional list. -/
  | positionalOrder (name : String)
  /-- A flag or counter has a default. -/
  | defaultNotAllowed (name : String)
  /-- A default is not of the field's type. -/
  | defaultTypeMismatch (name expected found : String)
  /-- A required field has a default. -/
  | requiredWithDefault (name : String)
  deriving DecidableEq, Repr

namespace SchemaProblem

/-- The wording of a problem. -/
def message : SchemaProblem → String
  | emptySchemaName => "schema name cannot be empty"
  | invalidFieldName name => "invalid field name: " ++ Text.quote name
  | duplicateFieldName name => "duplicate field name: " ++ name
  | missingOptionName name => "option `" ++ name ++ "` must define a short or long form"
  | positionalWithOptionName name =>
    "positional `" ++ name ++ "` cannot have a short or long form"
  | invalidShortOption c => "invalid short option: -" ++ String.singleton c
  | invalidLongOption long => "invalid long option: --" ++ long
  | duplicateShortOption c => "duplicate short option: -" ++ String.singleton c
  | duplicateLongOption long => "duplicate long option: --" ++ long
  | multiplePositionals name => "only one single positional is allowed, found another: " ++ name
  | multiplePositionalLists name => "only one positional list is allowed, found another: " ++ name
  | positionalOrder name =>
    "single positional `" ++ name ++ "` must be declared before the positional list"
  | defaultNotAllowed name => "field `" ++ name ++ "` cannot declare a default"
  | defaultTypeMismatch name expected found =>
    "default for `" ++ name ++ "` must be of type " ++ expected ++ ", got " ++ found
  | requiredWithDefault name => "required field `" ++ name ++ "` cannot declare a default"

end SchemaProblem

end CommandSchema
