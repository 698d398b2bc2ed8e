import CommandSchema.Definition
import CommandSchema.Schema

/-!
# From definitions to schemas

What a declared field means, and why it may mean nothing. The faults of a field are looked for in a
fixed order, and the first one is reported.
-/

namespace CommandSchema

/-- Why a declared field is no field. -/
inductive DefinitionProblem
  | noOption
  | defaultNotAllowed
  | typeNotAllowed
  | requiredNotAllowed
  /-- A flag or counter is given a bare name. -/
  | spellingNeeded
  /-- A positional list is given anything but one bare name. -/
  | bareNameNeeded
  | badLong (option : String)
  | multipleLongs
  | badShort (option : String)
  | multipleShorts
  /-- An option has no dash. -/
  | badOption (option : String)
  deriving DecidableEq, Repr

namespace DefinitionProblem

/-- The wording of a problem. -/
def message : DefinitionProblem → String
  | noOption => "at least one option is required"
  | defaultNotAllowed => "\"default\" is not allowed here"
  | typeNotAllowed => "\"type\" is not allowed here"
  | requiredNotAllowed => "\"required\" is not allowed here"
  | spellingNeeded => "flags need an option spelling"
  | bareNameNeeded => "rest takes a single bare name"
  | badLong option => "bad long option " ++ Text.quote option
  | multipleLongs => "multiple long options"
  | badShort option => "bad short option " ++ Text.quote option
  | multipleShorts => "multiple short options"
  | badOption option => "bad option " ++ Text.quote option

end DefinitionProblem

/-- The forms that the spellings of an option give it. -/
structure Spellings where
  short : Option Char
  long : Option String
  deriving DecidableEq, Repr

namespace Spellings

/-- The forms with one more spelling. -/
def add (s : Spellings) (option : String) : Except DefinitionProblem Spellings :=
  match option.toList with
  | ['-', '-'] => .error (.badLong option)
  | '-' :: '-' :: name =>
    if s.long.isSome then .error .multipleLongs
    else .ok { s with long := some (String.ofList name) }
  | ['-', c] => if s.short.isSome then .error .multipleShorts else .ok { s with short := some c }
  | '-' :: _ => .error (.badShort option)
  | _ => .error (.badOption option)

/-- The forms of an option with given spellings: at most one short and one long form. -/
def ofOptions (options : List String) : Except DefinitionProblem Spellings :=
  options.foldlM add ⟨none, none⟩

end Spellings

/-- Whether a word is a bare name: a letter, then letters, digits and underscores. -/
def isBareName (s : String) : Bool :=
  match s.toList with
  | [] => false
  | c :: cs => c.isAlpha && cs.all fun d => d.isAlphanum || d == '_'

namespace FieldDefinition

/-- The bare name that a declaration consists of, if it does. -/
def bareName? (d : FieldDefinition) : Option String :=
  match d.options with
  | [o] => if isBareName o then some o else none
  | _ => none

/-- Finds parameters that the kind of a field does not accept. -/
def checkParameters (d : FieldDefinition) : Except DefinitionProblem Unit :=
  if d.options = [] then .error .noOption
  else if d.kind ≠ .arg ∧ d.default.isSome then .error .defaultNotAllowed
  else if d.kind ≠ .arg ∧ d.type.isSome then .error .typeNotAllowed
  else if d.kind ≠ .arg ∧ d.kind ≠ .rest ∧ d.required.isSome then .error .requiredNotAllowed
  else .ok ()

/-- The field of the declared kind, before anything is said about its name or its value. -/
def bareField (d : FieldDefinition) : Except DefinitionProblem Field :=
  let type := d.type.getD .string
  match d.kind, d.bareName? with
  | .flag, some _ | .count, some _ => .error .spellingNeeded
  | .rest, none => .error .bareNameNeeded
  | .flag, none => do
    let s ← Spellings.ofOptions d.options
    return .flag s.short s.long
  | .count, none => do
    let s ← Spellings.ofOptions d.options
    return .counter s.short s.long
  | .arg, none => do
    let s ← Spellings.ofOptions d.options
    return .valued s.short s.long type
  | .arg, some name => .ok (.positional name type)
  | .rest, some name => .ok (.positionalList name)

/-- A field with what the declaration adds to its kind. -/
def refine (d : FieldDefinition) (f : Field) : Field :=
  let f := d.name.elim f f.withName
  let f := d.default.elim f f.withDefault
  let f := d.required.elim f fun r => if r then f.asRequired else f.asOptional
  d.description.elim f f.withDescription

/-- The field that is declared. -/
def toField (d : FieldDefinition) : Except DefinitionProblem Field := do
  d.checkParameters
  return d.refine (← d.bareField)

end FieldDefinition

/-- Why a declared schema is no schema. -/
inductive SchemaDefinitionProblem
  /-- A field of the schema, named by its label, has a problem. -/
  | field (label : String) (problem : DefinitionProblem)
  /-- The fields do not go together. -/
  | schema (problem : SchemaProblem)
  deriving DecidableEq, Repr

namespace SchemaDefinition

/-- The field that is declared, or the fault with the label of the field. -/
def toField (d : FieldDefinition) : Except SchemaDefinitionProblem Field :=
  d.toField.mapError (.field d.label)

/-- The schema that is declared. -/
def toSchema (d : SchemaDefinition) : Except SchemaDefinitionProblem Schema := do
  let fields ← d.fields.mapM toField
  (Schema.build d.name d.description fields).mapError .schema

end SchemaDefinition

end CommandSchema
