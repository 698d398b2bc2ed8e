import CommandSchema.Value

/-!
# Fields

A field is one thing that a command line may hold: an option that is switched on, counted or given
a value, or a positional argument.
-/

namespace CommandSchema

/-- How a field takes its value from the command line. -/
inductive FieldKind
  /-- An option without a value, true by presence. -/
  | flag
  /-- An option without a value whose occurrences are counted. -/
  | counter
  /-- An option with one value. -/
  | valued (type : ValueType)
  /-- The first positional token. -/
  | positional (type : ValueType)
  /-- The positional tokens that are left. -/
  | positionalList
  deriving DecidableEq, Repr

namespace FieldKind

/-- Whether fields of this kind are positional. -/
def isPositional : FieldKind → Bool
  | positional _ | positionalList => true
  | _ => false

/-- Whether options of this kind consume a value. -/
def takesValue : FieldKind → Bool
  | valued _ => true
  | _ => false

/-- The value type of a kind, if it has one. -/
def type? : FieldKind → Option ValueType
  | valued t | positional t => some t
  | _ => none

end FieldKind

/-- One declared field. -/
structure Field where
  /-- The identifier under which the field's value is found. -/
  name : String
  /-- How the field takes its value. -/
  kind : FieldKind
  /-- The character of the short form. -/
  short : Option Char
  /-- The long form, without its dashes. -/
  long : Option String
  /-- Whether the field must be supplied. -/
  required : Bool
  /-- The value of the field when it is not supplied. -/
  default : Option Value
  /-- A description in prose. -/
  description : Option String
  deriving DecidableEq, Repr

namespace Field

/-- The name of an option: its long form with underscores for dashes, else its short form. -/
def derivedName (short : Option Char) (long : Option String) : String :=
  match long, short with
  | some l, _ => String.ofList (l.toList.map fun c => if c = '-' then '_' else c)
  | none, some c => String.singleton c
  | none, none => ""

/-- An option of a given kind, not required and without a default. -/
def option (kind : FieldKind) (short : Option Char) (long : Option String) : Field where
  name := derivedName short long
  kind := kind
  short := short
  long := long
  required := false
  default := none
  description := none

/-- An option that is true by presence. -/
def flag (short : Option Char) (long : Option String) : Field :=
  option .flag short long

/-- An option whose occurrences are counted. -/
def counter (short : Option Char) (long : Option String) : Field :=
  option .counter short long

/-- A required option with one value. -/
def valued (short : Option Char) (long : Option String) (type : ValueType) : Field :=
  { option (.valued type) short long with required := true }

/-- The required positional field that takes the first positional token. -/
def positional (name : String) (type : ValueType) : Field where
  name := name
  kind := .positional type
  short := none
  long := none
  required := true
  default := none
  description := none

/-- The positional field that takes the positional tokens that are left, also none. -/
def positionalList (name : String) : Field :=
  { positional name .string with kind := .positionalList, required := false }

/-- The field under another name. -/
def withName (f : Field) (name : String) : Field :=
  { f with name := name }

/-- The field with a default, which makes it optional. -/
def withDefault (f : Field) (value : Value) : Field :=
  { f with default := some value, required := false }

/-- The field made optional, with the default that it has. -/
def asOptional (f : Field) : Field :=
  { f with required := false }

/-- The field made required. -/
def asRequired (f : Field) : Field :=
  { f with required := true }

/-- The field with a description. -/
def withDescription (f : Field) (text : String) : Field :=
  { f with description := some text }

/-- The value of the field when the command line does not supply it. -/
def defaultValue (f : Field) : Value :=
  match f.kind with
  | .flag => .bool false
  | .counter => .count 0
  | .valued t | .positional t => f.default.getD t.zero
  | .positionalList => f.default.getD (.list [])

/-- What a user types to name the field: its long form, else its short form, else its name. -/
def displayName (f : Field) : String :=
  match f.long, f.short with
  | some l, _ => "--" ++ l
  | none, some c => "-" ++ String.singleton c
  | none, none => f.name

/-- Whether the field answers to a short form. -/
def matchesShort (f : Field) (c : Char) : Bool :=
  f.short == some c

/-- Whether the field answers to a long form, given without its dashes. -/
def matchesLong (f : Field) (long : String) : Bool :=
  f.long == some long

end Field

end CommandSchema
