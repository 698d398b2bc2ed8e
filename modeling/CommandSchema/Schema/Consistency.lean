import CommandSchema.Schema.Problem

/-!
# Consistency of a list of fields

The rules for names and forms, and the problems of a list of fields in declaration order. Each field
is held against what the fields before it have taken.
-/

namespace CommandSchema

/-- Whether a text is a field name: letters, digits and underscores, no digit first. -/
def isFieldName (name : String) : Bool :=
  match name.toList with
  | [] => false
  | c :: cs => (c.isAlpha || c == '_') && cs.all fun d => d.isAlphanum || d == '_'

/-- Whether a character is a short form: a letter or a digit. -/
def isShortName (c : Char) : Bool :=
  c.isAlphanum

/-- Whether a text is a long form: words of letters and digits between single dashes, the first of
which starts with a letter. -/
def isLongName (long : String) : Bool :=
  (long.toList.head?.any Char.isAlpha) &&
    (long.toList.splitOn '-').all fun word => !word.isEmpty && word.all Char.isAlphanum

/-- The word for the values that a field may have as its default; flags and counters have none. -/
def FieldKind.defaultTypeName? : FieldKind → Option String
  | .flag | .counter => none
  | .valued t | .positional t => some t.name
  | .positionalList => some "list"

/-- The problem with a field's default, if there is one. -/
def Field.defaultProblem? (f : Field) : Option SchemaProblem :=
  match f.default with
  | none => none
  | some value =>
    if f.required then some (.requiredWithDefault f.name)
    else match f.kind.defaultTypeName? with
      | none => some (.defaultNotAllowed f.name)
      | some expected =>
        if value.typeName = expected then none
        else some (.defaultTypeMismatch f.name expected value.typeName)

/-- The problems with the forms of a field, whatever stands before it. -/
def Field.formProblems (f : Field) : List SchemaProblem :=
  if f.kind.isPositional then
    if f.short.isSome || f.long.isSome then [.positionalWithOptionName f.name] else []
  else
    if f.short.isNone && f.long.isNone then [.missingOptionName f.name] else []

/-- What the fields of a list have taken. -/
structure Taken where
  names : List String
  shorts : List Char
  longs : List String
  /-- Whether a field takes the first positional token. -/
  positional : Bool
  /-- Whether a field takes the positional tokens that are left. -/
  positionalList : Bool
  deriving DecidableEq, Repr

namespace Taken

/-- Nothing is taken before the first field. -/
def nothing : Taken :=
  ⟨[], [], [], false, false⟩

/-- The problem with a field's name. -/
def nameProblems (t : Taken) (f : Field) : List SchemaProblem :=
  if !isFieldName f.name then [.invalidFieldName f.name]
  else if t.names.contains f.name then [.duplicateFieldName f.name]
  else []

/-- The problem with a field's short form. -/
def shortProblems (t : Taken) (f : Field) : List SchemaProblem :=
  match f.short with
  | none => []
  | some c =>
    if !isShortName c then [.invalidShortOption c]
    else if t.shorts.contains c then [.duplicateShortOption c]
    else []

/-- The problem with a field's long form. -/
def longProblems (t : Taken) (f : Field) : List SchemaProblem :=
  match f.long with
  | none => []
  | some long =>
    if !isLongName long then [.invalidLongOption long]
    else if t.longs.contains long then [.duplicateLongOption long]
    else []

/-- The problem with the place of a positional field. -/
def orderProblems (t : Taken) (f : Field) : List SchemaProblem :=
  match f.kind with
  | .positional _ =>
    if t.positional then [.multiplePositionals f.name]
    else if t.positionalList then [.positionalOrder f.name]
    else []
  | .positionalList => if t.positionalList then [.multiplePositionalLists f.name] else []
  | _ => []

/-- The problems of one field. -/
def problems (t : Taken) (f : Field) : List SchemaProblem :=
  t.nameProblems f ++ f.formProblems ++ t.shortProblems f ++ t.longProblems f ++
    t.orderProblems f ++ f.defaultProblem?.toList

/-- What is taken once a field is declared as well. -/
def insert (t : Taken) (f : Field) : Taken where
  names := f.name :: t.names
  shorts := f.short.toList ++ t.shorts
  longs := f.long.toList ++ t.longs
  positional := t.positional || (f.kind matches .positional _)
  positionalList := t.positionalList || (f.kind matches .positionalList)

end Taken

/-- The problems of the fields that are declared after others. -/
def problemsAfter : Taken → List Field → List SchemaProblem
  | _, [] => []
  | t, f :: fs => t.problems f ++ problemsAfter (t.insert f) fs

/-- The problems of a list of fields, in declaration order. -/
def problems (fields : List Field) : List SchemaProblem :=
  problemsAfter .nothing fields

end CommandSchema
