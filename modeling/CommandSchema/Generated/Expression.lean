import CommandSchema.Generated.FieldCall

/-!
# Expressions as Rust source

Values, and the calls that rebuild a field, in the syntax of Rust.
-/

namespace CommandSchema.Generated

/-- An optional argument. -/
def optionSource (argument : Option String) : String :=
  match argument with
  | some a => "Some(" ++ a ++ ")"
  | none => "None"

/-- The forms of an option as two arguments. -/
def formsSource (short : Option Char) (long : Option String) : String :=
  optionSource (short.map Text.quoteChar) ++ ", " ++ optionSource (long.map Text.quote)

/-- A value type. -/
def typeSource : ValueType → String
  | .int => "ValueType::Int"
  | .string => "ValueType::String"

/-- A text that the expression owns. -/
def ownedSource (s : String) : String :=
  Text.quote s ++ ".to_string()"

/-- A value. -/
def valueSource : Value → String
  | .bool b => "Value::Bool(" ++ (if b then "true" else "false") ++ ")"
  | .int n => "Value::Int(" ++ Text.decimal n.toInt ++ ")"
  | .count n => "Value::Count(" ++ Text.decimal n.toNat ++ ")"
  | .str s => "Value::Str(" ++ ownedSource s ++ ")"
  | .list items => "Value::List(vec![" ++ ", ".intercalate (items.map ownedSource) ++ "])"

namespace Constructor

/-- A call of a constructor. -/
def source : Constructor → String
  | flag short long => "FieldSchema::flag(" ++ formsSource short long ++ ")"
  | counter short long => "FieldSchema::counter(" ++ formsSource short long ++ ")"
  | valued short long type =>
    "FieldSchema::valued(" ++ formsSource short long ++ ", " ++ typeSource type ++ ")"
  | positional name type =>
    "FieldSchema::positional(" ++ Text.quote name ++ ", " ++ typeSource type ++ ")"
  | positionalList name => "FieldSchema::positional_list(" ++ Text.quote name ++ ")"

end Constructor

namespace Method

/-- A call of a method, from its dot on. -/
def source : Method → String
  | withName name => ".with_name(" ++ Text.quote name ++ ")"
  | withDefault value => ".with_default(" ++ valueSource value ++ ")"
  | required => ".required()"
  | optional => ".optional()"
  | withDescription text => ".with_description(" ++ Text.quote text ++ ")"

end Method

namespace FieldCall

/-- The whole expression. -/
def source (e : FieldCall) : String :=
  e.constructor.source ++ String.join (e.methods.map Method.source)

end FieldCall

end CommandSchema.Generated
