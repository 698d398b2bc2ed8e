import CommandSchema.Proofs.Rust.Literal
import CommandSchema.Schema
import Mathlib.Algebra.Ring.Int.Defs
import Mathlib.Algebra.Ring.Nat

/-!
# Expressions of Rust source

Literals, paths, calls of functions and methods, lists, and closures without
parameters.  Expressions are read from left to right by a machine that keeps the calls
it is inside of on a stack.  They are evaluated with the constructors of schemas: every
function and method has the meaning of the definition with its name, and takes arguments
of its own types only.
-/

namespace CommandSchema.Rust

/-- An expression. -/
inductive Expr
  | string (text : String)
  | char (c : Char)
  | int (n : Int)
  | path (parts : List String)
  | call (parts : List String) (args : List Expr)
  | method (receiver : Expr) (name : String) (args : List Expr)
  | vec (items : List Expr)
  | closure (body : Expr)

/-! ## Reading -/

/-- What an expression stands inside of, with the expressions before it there. -/
inductive Frame
  | call (parts : List String) (args : List Expr)
  | method (receiver : Expr) (name : String) (args : List Expr)
  | vec (items : List Expr)
  | closure (body : Option Expr)

namespace Frame

/-- Adds an expression. -/
def add (e : Expr) : Frame → Option Frame
  | call parts args => some (call parts (args ++ [e]))
  | method receiver name args => some (method receiver name (args ++ [e]))
  | vec items => some (vec (items ++ [e]))
  | closure none => some (closure (some e))
  | closure (some _) => none

/-- Whether a comma may follow an expression. -/
def takesComma : Frame → Bool
  | closure _ => false
  | _ => true

/-- The expression that a closing bracket completes. -/
def close : Frame → Char → Option Expr
  | call parts args, ')' => some (.call parts args)
  | method receiver name args, ')' => some (.method receiver name args)
  | vec items, ']' => some (.vec items)
  | closure (some body), '}' => some (.closure body)
  | _, _ => none

end Frame

/-- What the machine is waiting for. -/
inductive Expect
  | operand
  /-- The number after a minus sign. -/
  | number
  /-- The next part of a path. -/
  | part (parts : List String)
  /-- What may follow a whole expression. -/
  | more (e : Expr)
  /-- The name of a method. -/
  | name (receiver : Expr)
  /-- The arguments of a method. -/
  | arguments (receiver : Expr) (name : String)
  /-- The items of a list. -/
  | items
  /-- The second bar of a closure. -/
  | bar
  /-- The body of a closure. -/
  | body
  /-- Nothing, after a semicolon. -/
  | nothing (e : Expr)

/-- The state of the machine. -/
structure Reader where
  expect : Expect
  /-- What the expression stands inside of, innermost first. -/
  frames : List Frame

namespace Reader

/-- Whether a dot after an expression belongs to the whole of it. -/
def takesMethods : Expr → Bool
  | .int _ | .closure _ => false
  | _ => true

/-- Completes the innermost frame. -/
def close (c : Char) : List Frame → Option Reader
  | [] => none
  | frame :: frames => (frame.close c).map fun e => ⟨.more e, frames⟩

/-- Reads punctuation after a whole expression. -/
def punct (e : Expr) (frames : List Frame) (c : Char) : Option Reader :=
  if c = '.' then if takesMethods e then some ⟨.name e, frames⟩ else none
  else match e, frames, c with
    | .path parts, _, '(' => some ⟨.operand, .call parts [] :: frames⟩
    | .path ["vec"], _, '!' => some ⟨.items, frames⟩
    | _, [], ';' => some ⟨.nothing e, []⟩
    | _, [], _ => none
    | _, frame :: outer, _ => do
      let frame ← frame.add e
      if c = ',' then if frame.takesComma then some ⟨.operand, frame :: outer⟩ else none
      else close c (frame :: outer)

/-- Reads a token. -/
def step : Reader → Token → Option Reader
  | ⟨.operand, frames⟩, .string text => some ⟨.more (.string text), frames⟩
  | ⟨.operand, frames⟩, .char c => some ⟨.more (.char c), frames⟩
  | ⟨.operand, frames⟩, .int n => some ⟨.more (.int n), frames⟩
  | ⟨.operand, frames⟩, .word name => some ⟨.more (.path [name]), frames⟩
  | ⟨.operand, frames⟩, .punct c =>
    if c = '-' then some ⟨.number, frames⟩
    else if c = '|' then some ⟨.bar, frames⟩
    else close c frames
  | ⟨.number, frames⟩, .int n => some ⟨.more (.int (-n)), frames⟩
  | ⟨.part parts, frames⟩, .word name => some ⟨.more (.path (parts ++ [name])), frames⟩
  | ⟨.more (.path parts), frames⟩, .sep => some ⟨.part parts, frames⟩
  | ⟨.more e, frames⟩, .punct c => punct e frames c
  | ⟨.name receiver, frames⟩, .word name => some ⟨.arguments receiver name, frames⟩
  | ⟨.arguments receiver name, frames⟩, .punct '(' =>
    some ⟨.operand, .method receiver name [] :: frames⟩
  | ⟨.items, frames⟩, .punct '[' => some ⟨.operand, .vec [] :: frames⟩
  | ⟨.bar, frames⟩, .punct '|' => some ⟨.body, frames⟩
  | ⟨.body, frames⟩, .punct '{' => some ⟨.operand, .closure none :: frames⟩
  | _, _ => none

end Reader

/-- The expression that a static item is set to, if `head` is what stands before it. -/
def static? (head : List Token) (text : List Char) : Option Expr := do
  let tokens ← tokens? text
  guard (head <+: tokens)
  match ← (tokens.drop head.length).foldlM Reader.step ⟨.operand, []⟩ with
  | ⟨.nothing e, []⟩ => some e
  | _ => none

/-! ## Evaluation -/

/-- What an expression stands for. -/
inductive Object
  /-- A borrowed text. -/
  | str (text : String)
  /-- An owned text. -/
  | owned (text : String)
  | char (c : Char)
  | int (n : Int)
  | bool (b : Bool)
  /-- An option without a value, of any type. -/
  | absent
  | someChar (c : Char)
  | someStr (text : String)
  /-- A list of owned texts. -/
  | texts (items : List String)
  | type (t : ValueType)
  | value (v : Value)
  | field (f : Field)
  /-- A schema under construction. -/
  | builder (name : String) (description : Option String) (fields : List Field)
  /-- The outcome of a construction. -/
  | built (result : Except SchemaProblem Schema)
  | schema (s : Schema)

namespace Object

/-- The character that an object may hold as an option. -/
def optionChar? : Object → Option (Option Char)
  | absent => some none
  | someChar c => some (some c)
  | _ => none

/-- The text that an object may hold as an option. -/
def optionStr? : Object → Option (Option String)
  | absent => some none
  | someStr text => some (some text)
  | _ => none

/-- The owned text that an object is. -/
def owned? : Object → Option String
  | owned text => some text
  | _ => none

/-- The constants. -/
def ofPath : List String → Option Object
  | ["true"] => some (bool true)
  | ["false"] => some (bool false)
  | ["None"] => some absent
  | ["ValueType", "Int"] => some (type .int)
  | ["ValueType", "String"] => some (type .string)
  | _ => none

/-- The functions.  A number outside of the range of its type is no value. -/
def apply : List String → List Object → Option Object
  | ["Some"], [char c] => some (someChar c)
  | ["Some"], [str text] => some (someStr text)
  | ["Value", "Bool"], [bool b] => some (value (.bool b))
  | ["Value", "Int"], [int n] =>
    if -2 ^ 63 ≤ n ∧ n < 2 ^ 63 then some (value (.int (Int64.ofInt n))) else none
  | ["Value", "Count"], [int n] =>
    if 0 ≤ n ∧ n < 2 ^ 32 then some (value (.count (UInt32.ofNat n.toNat))) else none
  | ["Value", "Str"], [owned text] => some (value (.str text))
  | ["Value", "List"], [texts items] => some (value (.list items))
  | ["FieldSchema", "flag"], [short, long] => do
    return field (.flag (← short.optionChar?) (← long.optionStr?))
  | ["FieldSchema", "counter"], [short, long] => do
    return field (.counter (← short.optionChar?) (← long.optionStr?))
  | ["FieldSchema", "valued"], [short, long, type t] => do
    return field (.valued (← short.optionChar?) (← long.optionStr?) t)
  | ["FieldSchema", "positional"], [str name, type t] => some (field (.positional name t))
  | ["FieldSchema", "positional_list"], [str name] => some (field (.positionalList name))
  | ["Schema", "builder"], [str name] => some (builder name none [])
  | ["LazyLock", "new"], [schema s] => some (schema s)
  | _, _ => none

/-- The methods.  To expect the outcome of a construction that failed stops the program. -/
def invoke : Object → String → List Object → Option Object
  | str text, "to_string", [] => some (owned text)
  | field f, "with_name", [str name] => some (field (f.withName name))
  | field f, "with_default", [value v] => some (field (f.withDefault v))
  | field f, "required", [] => some (field f.asRequired)
  | field f, "optional", [] => some (field f.asOptional)
  | field f, "with_description", [str text] => some (field (f.withDescription text))
  | builder name _ fields, "description", [str text] => some (builder name (some text) fields)
  | builder name description fields, "field", [field f] =>
    some (builder name description (fields ++ [f]))
  | builder name description fields, "build", [] =>
    some (built (Schema.build name description fields))
  | built (.ok s), "expect", [str _] => some (schema s)
  | _, _, _ => none

end Object

namespace Expr

mutual

/-- What an expression stands for.  A closure stands for what its body gives. -/
def eval : Expr → Option Object
  | string text => some (.str text)
  | char c => some (.char c)
  | int n => some (.int n)
  | path parts => Object.ofPath parts
  | call parts args => do Object.apply parts (← evalAll args)
  | method receiver name args => do Object.invoke (← receiver.eval) name (← evalAll args)
  | vec items => do return .texts (← (← evalAll items).mapM Object.owned?)
  | closure body => body.eval

/-- What expressions stand for, in order. -/
def evalAll : List Expr → Option (List Object)
  | [] => some []
  | e :: es => do return (← e.eval) :: (← evalAll es)

end

end Expr

end CommandSchema.Rust
