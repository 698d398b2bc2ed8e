import CommandSchema.Definition
import CommandSchema.Source

/-!
# Shapes of definitions

How definition files and their parts are read from a source. A part may come in any order of its
members, so each is collected in a draft first.
-/

namespace CommandSchema

variable {σ : Type} {m : Type → Type} [Monad m] [Source σ m]

namespace Slot

/-- A member that has to be there. -/
def needed {δ α : Type} (key : String) (get : δ → Option α) (put : δ → Option α → δ)
    (read : σ → m α) : Slot σ m δ where
  key := key
  isSet d := (get d).isSome
  read s d := do return put d (some (← read s))
  isSpare := false

/-- A member that may be left out. -/
def spare {δ α : Type} (key : String) (get : δ → Option α) (put : δ → Option α → δ)
    (read : σ → m α) : Slot σ m δ :=
  { needed key get put read with isSpare := true }

end Slot

/-- A member that has to be there, from the draft. -/
def Fault.require {α : Type} (key : String) : Option α → Except Fault α
  | some a => .ok a
  | none => .error (.missingMember key)

/-- A text. -/
def Source.string (s : σ) : m String :=
  Source.text "a string" s

namespace ValueType

/-- All types under their names. -/
def names : List (String × ValueType) :=
  [int, string].map fun t => (t.name, t)

end ValueType

namespace FieldDefinition

/-- What has been read of a declared field. -/
structure Draft where
  kind : Option DefinitionKind
  options : Option (List String)
  name : Option (Option String)
  type : Option (Option ValueType)
  default : Option (Option Value)
  required : Option (Option Bool)
  description : Option (Option String)

/-- The shape of a declared field. -/
def layout : Layout σ m Draft FieldDefinition where
  name := "FieldDefinition"
  start := ⟨none, none, none, none, none, none, none⟩
  slots := [
    .needed "kind" Draft.kind (fun d v => { d with kind := v })
      (Source.choice DefinitionKind.words),
    .needed "options" Draft.options (fun d v => { d with options := v })
      (Source.list Source.string),
    .spare "name" Draft.name (fun d v => { d with name := v })
      (Source.optional Source.string),
    .spare "type" Draft.type (fun d v => { d with type := v })
      (Source.optional (Source.choice ValueType.names)),
    .spare "default" Draft.default (fun d v => { d with default := v })
      (Source.optional Source.value),
    .spare "required" Draft.required (fun d v => { d with required := v })
      (Source.optional Source.truth),
    .spare "description" Draft.description (fun d v => { d with description := v })
      (Source.optional Source.string)]
  others := .refused
  finish d := do
    let kind ← Fault.require "kind" d.kind
    let options ← Fault.require "options" d.options
    return ⟨kind, options, d.name.join, d.type.join, d.default.join, d.required.join,
      d.description.join⟩

/-- Reads a declared field. -/
def read (s : σ) : m FieldDefinition :=
  layout.read s

end FieldDefinition

namespace SchemaDefinition

/-- What has been read of a declared schema. -/
structure Draft where
  name : Option String
  description : Option (Option String)
  fields : Option (List FieldDefinition)

/-- The shape of a declared schema. -/
def layout : Layout σ m Draft SchemaDefinition where
  name := "SchemaDefinition"
  start := ⟨none, none, none⟩
  slots := [
    .needed "name" Draft.name (fun d v => { d with name := v }) Source.string,
    .spare "description" Draft.description (fun d v => { d with description := v })
      (Source.optional Source.string),
    .spare "fields" Draft.fields (fun d v => { d with fields := v })
      (Source.list FieldDefinition.read)]
  others := .refused
  finish d := do
    let name ← Fault.require "name" d.name
    return ⟨name, d.description.join, d.fields.getD []⟩

/-- Reads a declared schema. -/
def read (s : σ) : m SchemaDefinition :=
  layout.read s

end SchemaDefinition

namespace DefinitionFile

/-- The shape of a definition file, which may hold other members. -/
def layout : Layout σ m (Option (List SchemaDefinition)) DefinitionFile where
  name := "DefinitionFile"
  start := none
  slots := [.needed "schemas" id (fun _ v => v) (Source.list SchemaDefinition.read)]
  others := .ignored
  finish d := do
    let schemas ← Fault.require "schemas" d
    return ⟨schemas⟩

/-- Reads the contents of a definition file. -/
def read (s : σ) : m DefinitionFile :=
  layout.read s

end DefinitionFile

end CommandSchema
