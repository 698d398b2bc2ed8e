import CommandSchema.Text.Decimal
import CommandSchema.Text.Quoted

/-!
# Values

The values that fields of a command line take, and the two types that a value read from a token
can have.
-/

namespace CommandSchema

/-- A value of a field. -/
inductive Value
  | bool (b : Bool)
  | int (n : Int64)
  | str (s : String)
  | list (items : List String)
  | count (n : UInt32)
  deriving DecidableEq, Repr

namespace Value

/-- The truth value that a value holds, if it is one. -/
def bool? : Value → Option Bool
  | bool b => some b
  | _ => none

/-- The number of occurrences that a value holds, if it is one. -/
def count? : Value → Option UInt32
  | count n => some n
  | _ => none

/-- The integer that a value holds, if it is one. -/
def int? : Value → Option Int64
  | int n => some n
  | _ => none

/-- The text that a value holds, if it is one. -/
def str? : Value → Option String
  | str s => some s
  | _ => none

/-- The list of texts that a value holds, if it is one. -/
def list? : Value → Option (List String)
  | list items => some items
  | _ => none

/-- The word for the sort of a value. -/
def typeName : Value → String
  | bool _ => "bool"
  | int _ => "int"
  | str _ => "string"
  | list _ => "list"
  | count _ => "count"

/-- A value as it shows in a diagnostic: texts are quoted. -/
def render : Value → String
  | bool b => if b then "true" else "false"
  | int n => Text.decimal n.toInt
  | count n => Text.decimal n.toNat
  | str s => Text.quote s
  | list items => "[" ++ ", ".intercalate (items.map Text.quote) ++ "]"

end Value

/-- The type of a value that is read from one token. -/
inductive ValueType
  | int
  | string
  deriving DecidableEq, Repr

namespace ValueType

/-- The name of a type. -/
def name : ValueType → String
  | int => "int"
  | string => "string"

/-- The value of an optional field that declares no default. -/
def zero : ValueType → Value
  | int => .int 0
  | string => .str ""

/-- The value of a token at a type. Every token is a string. -/
def convert : ValueType → String → Except Text.IntegerFault Value
  | int, raw => (Text.readInteger raw).map .int
  | string, raw => .ok (.str raw)

end ValueType

end CommandSchema
