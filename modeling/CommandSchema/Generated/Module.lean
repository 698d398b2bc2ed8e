import CommandSchema.Fingerprint
import CommandSchema.Generated.Identifier
import CommandSchema.Generated.Expression

/-!
# Generated modules

What a generated module holds, before it is written out: the struct's fields sorted by name, each
with its type, the way to read its value out of a parse result and the way to show it.
-/

namespace CommandSchema.Generated

/-- The Rust type of a struct field. -/
inductive RustType
  | bool
  | u32
  | i64
  | string
  | strings
  deriving DecidableEq, Repr

/-- How the value of a struct field is read out of a parse result. -/
inductive Accessor
  | flag
  | count
  | int
  | str
  | list
  deriving DecidableEq, Repr

/-- How the value of a struct field is shown. -/
inductive Show
  /-- Without quotation marks. -/
  | plain
  /-- With texts in quotation marks. -/
  | quoted
  deriving DecidableEq, Repr

/-- The type of a field of a kind. -/
def rustType : FieldKind → RustType
  | .flag => .bool
  | .counter => .u32
  | .valued .int | .positional .int => .i64
  | .valued .string | .positional .string => .string
  | .positionalList => .strings

/-- The accessor for a field of a kind. -/
def accessor : FieldKind → Accessor
  | .flag => .flag
  | .counter => .count
  | .valued .int | .positional .int => .int
  | .valued .string | .positional .string => .str
  | .positionalList => .list

/-- How a field of a kind is shown. -/
def showing : FieldKind → Show
  | .flag | .counter | .valued .int | .positional .int => .plain
  | _ => .quoted

/-- A field of the schema and its identifier in the struct. -/
structure Member where
  ident : String
  field : Field
  deriving DecidableEq, Repr

/-- The member for a field. -/
def Member.of (f : Field) : Except InvalidIdentifier Member :=
  match fieldIdent? f.name with
  | some ident => .ok ⟨ident, f⟩
  | none => .error ⟨f.name⟩

/-- A module for a schema. -/
structure Module where
  schema : Schema
  structName : String
  /-- The members in declaration order. -/
  declared : List Member
  deriving DecidableEq

namespace Module

/-- The module for a schema under a struct name. -/
def of (s : Schema) (structName : String) : Except InvalidIdentifier Module :=
  if isStructName structName then do
    let declared ← s.fields.mapM Member.of
    return ⟨s, structName, declared⟩
  else .error ⟨structName⟩

/-- The members sorted by the names of their fields. -/
def sorted (m : Module) : List Member :=
  m.declared.mergeSort fun a b => decide (a.field.name ≤ b.field.name)

/-- The names that the module imports from the library of schemas. -/
def imports (m : Module) : List String :=
  (if m.schema.fields.isEmpty then [] else ["FieldSchema"]) ++ ["Schema"] ++
    (if m.schema.fields.any fun f => f.default.isSome then ["Value"] else []) ++
    (if m.schema.fields.any fun f => f.kind.type?.isSome then ["ValueType"] else [])

end Module

end CommandSchema.Generated
