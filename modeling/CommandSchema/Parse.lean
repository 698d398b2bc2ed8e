import CommandSchema.Parse.Bindings
import CommandSchema.Parse.Scan

/-!
# Parsing a command line

After the scan, positional tokens go to the positional fields, left-over tokens are an error, then
required options are, and what the command line did not supply takes its default.
-/

namespace CommandSchema.Schema

/-- The positional tokens that are left, and the slots with what positional fields have taken. -/
structure Dealt where
  tokens : List String
  slots : List (Option Value)
  deriving DecidableEq, Repr

/-- Gives a positional field its tokens. -/
def deal (d : Dealt) (entry : Nat × Field) : Except ParseError Dealt :=
  let (index, field) := entry
  match field.kind with
  | .positional type =>
    match d.tokens with
    | token :: rest => do
      let value ← convertFor field.name type token
      return ⟨rest, d.slots.set index (some value)⟩
    | [] => if field.required then .error (.missingPositional field.name) else .ok d
  | .positionalList =>
    if d.tokens = [] then
      if field.required then .error (.missingPositional field.name) else .ok d
    else .ok ⟨[], d.slots.set index (some (.list d.tokens))⟩
  | _ => .ok d

/-- Gives the positional fields their tokens; none may be left. -/
def dealAll (s : Schema) (tokens : List String) (slots : List (Option Value)) :
    Except ParseError (List (Option Value)) := do
  let dealt ← s.positionalEntries.foldlM deal ⟨tokens, slots⟩
  match dealt.tokens with
  | token :: _ => throw (.unexpectedPositional token)
  | [] => return dealt.slots

/-- The first required option that has no value. -/
def unmet? (s : Schema) (slots : List (Option Value)) : Option Field :=
  ((s.fields.zip slots).find? fun (f, v) => f.required && f.kind.takesValue && v.isNone).map
    Prod.fst

/-- A field with the value that it was given, else with its default. -/
def settle (f : Field) (slot : Option Value) : Binding :=
  ⟨f.name, slot.getD f.defaultValue, slot.isSome⟩

/-- Binds every field after a scan. -/
def bind (s : Schema) (st : Scan.State) : Except ParseError Bindings := do
  let slots ← s.dealAll st.positionals st.slots
  match s.unmet? slots with
  | some f => throw (.missingRequiredOption f.displayName)
  | none => return ⟨s.name, (s.fields.zip slots).map fun (f, v) => settle f v⟩

/-- The values that a command line, given without the program's name, assigns to the fields. -/
def parse (s : Schema) (tokens : List String) : Except ParseError Bindings := do
  s.bind (← Scan.scan s tokens)

end CommandSchema.Schema
