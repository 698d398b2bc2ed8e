import CommandSchema.Value

/-!
# The result of a parse

Every field of a schema with exactly one value, in declaration order.
-/

namespace CommandSchema

/-- One field and its value. -/
structure Binding where
  name : String
  value : Value
  /-- Whether the value comes from the command line. -/
  explicit : Bool
  deriving DecidableEq, Repr

/-- The values that a command line gives to the fields of a schema. -/
structure Bindings where
  /-- The name of the schema. -/
  schema : String
  /-- The fields in declaration order. -/
  entries : List Binding
  deriving DecidableEq, Repr

/-- Two results are the same if schema and values agree, no matter which values were supplied. -/
instance : BEq Bindings where
  beq a b :=
    a.schema == b.schema &&
      a.entries.map (fun e => (e.name, e.value)) == b.entries.map (fun e => (e.name, e.value))

namespace Bindings

/-- The number of fields. -/
def size (b : Bindings) : Nat :=
  b.entries.length

/-- The field with a given name. -/
def binding? (b : Bindings) (name : String) : Option Binding :=
  b.entries.find? fun e => e.name == name

/-- The value of a field; there is none if the schema has no such field. -/
def get? (b : Bindings) (name : String) : Option Value :=
  (b.binding? name).map Binding.value

/-- Whether the command line supplied a field. -/
def isPresent (b : Bindings) (name : String) : Bool :=
  (b.binding? name).any Binding.explicit

/-- The value of a flag, and `false` for any other name. -/
def flag (b : Bindings) (name : String) : Bool :=
  ((b.get? name).bind Value.bool?).getD false

/-- The value of a counter, and zero for any other name. -/
def count (b : Bindings) (name : String) : UInt32 :=
  ((b.get? name).bind Value.count?).getD 0

/-- The value of a field if it is an integer. -/
def int? (b : Bindings) (name : String) : Option Int64 :=
  (b.get? name).bind Value.int?

/-- The value of a field if it is a text. -/
def str? (b : Bindings) (name : String) : Option String :=
  (b.get? name).bind Value.str?

/-- The value of a field if it is a list. -/
def list? (b : Bindings) (name : String) : Option (List String) :=
  (b.get? name).bind Value.list?

/-- The result on one line: the schema's name, then each field with its value. -/
def render (b : Bindings) : String :=
  "<" ++ b.schema ++ String.join (b.entries.map fun e => " " ++ e.name ++ "=" ++ e.value.render) ++
    ">"

end Bindings

end CommandSchema
