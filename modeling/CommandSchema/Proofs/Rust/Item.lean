import CommandSchema.Proofs.Rust.Line
import CommandSchema.Proofs.Rust.Literal

/-!
# Items of Rust source

Structs, and implementations whose functions have statements and a result.  Items are read
from left to right by a machine that keeps what it is inside of on a stack, from the module
down to the operands of an operator.  The heads of items and functions, and the fields of
structs, are kept as tokens.
-/

namespace CommandSchema.Rust

/-- An expression in a function. -/
inductive Code
  | string (text : String)
  | path (parts : List String)
  | ref (target : Code)
  | field (receiver : Code) (name : String)
  | call (parts : List String) (args : List Code)
  | method (receiver : Code) (name : String) (args : List Code)
  /-- A call with an exclamation mark behind the name. -/
  | bang (name : String) (args : List Code)
  /-- An expression with a question mark behind it. -/
  | attempt (body : Code)
  /-- A struct, with the names and the values of its fields. -/
  | record (type names : List String) (values : List Code)
  | equal (left right : Code)
  | both (left right : Code)

/-- A statement. -/
inductive Statement
  | bind (name : String) (value : Code)
  | run (value : Code)

/-- A function. -/
structure FunctionItem where
  head : List Token
  statements : List Statement
  result : Code

/-- An item of a module. -/
inductive ModuleItem
  | struct (head : List Token) (fields : List (List Token))
  | impl (head : List Token) (functions : List FunctionItem)

/-- What the machine is inside of, with what comes before there. -/
inductive Scope
  | top (items : List ModuleItem)
  | struct (head : List Token) (fields : List (List Token))
  | impl (head : List Token) (functions : List FunctionItem)
  | block (head : List Token) (statements : List Statement)
  /-- The statement that binds a name. -/
  | bind (name : String)
  /-- Arguments between brackets, and the expression that they make. -/
  | args (whole : List Code → Code) (done : List Code)
  | record (type names : List String) (values : List Code)
  /-- Behind the sign of a reference. -/
  | ref
  /-- On the right side of an operator. -/
  | equal (left : Code)
  | both (left : Code)

/-- What the machine is waiting for. -/
inductive Awaited
  /-- The rest of a head, or of a field of a struct. -/
  | head (tokens : List Token)
  | operand
  /-- The name behind `let`, and the sign behind the name. -/
  | binder
  | binding (name : String)
  /-- The next part of a path. -/
  | part (parts : List String)
  /-- What may follow an expression. -/
  | more (e : Code)
  /-- The name behind a dot. -/
  | member (receiver : Code)
  /-- The second of the two signs of an operator. -/
  | sign (left : Code) (c : Char)
  /-- The bracket behind an exclamation mark. -/
  | bracket (name : String)
  /-- The name of a field in a struct, and the colon behind it. -/
  | label
  | colon

/-- The state of the machine. -/
structure ItemReader where
  awaited : Awaited
  /-- What the machine is inside of, innermost first. -/
  scopes : List Scope

namespace ItemReader

/-- Takes an operand into the reference that it belongs to. -/
def settleOperand (e : Code) : List Scope → Code × List Scope
  | .ref :: scopes => (.ref e, scopes)
  | scopes => (e, scopes)

/-- Takes an operand into the comparison that it ends. -/
def settleEqual (e : Code) (scopes : List Scope) : Code × List Scope :=
  match settleOperand e scopes with
  | (e, .equal left :: scopes) => (.equal left e, scopes)
  | settled => settled

/-- Takes an operand into all operations that it ends. -/
def settle (e : Code) (scopes : List Scope) : Code × List Scope :=
  match settleEqual e scopes with
  | (e, .both left :: scopes) => (.both left e, scopes)
  | settled => settled

/-- Ends an expression at a sign that belongs to what it stands inside of. -/
def finish (e : Code) : List Scope → Char → Option ItemReader
  | .args whole done :: scopes, ',' => some ⟨.operand, .args whole (done ++ [e]) :: scopes⟩
  | .args whole done :: scopes, ')' => some ⟨.more (whole (done ++ [e])), scopes⟩
  | .record type names values :: scopes, ',' =>
    some ⟨.label, .record type names (values ++ [e]) :: scopes⟩
  | .record type names values :: scopes, '}' =>
    some ⟨.more (.record type names (values ++ [e])), scopes⟩
  | .bind name :: .block head statements :: scopes, ';' =>
    some ⟨.operand, .block head (statements ++ [.bind name e]) :: scopes⟩
  | .block head statements :: scopes, ';' =>
    some ⟨.operand, .block head (statements ++ [.run e]) :: scopes⟩
  | .block head statements :: .impl type functions :: scopes, '}' =>
    some ⟨.head [], .impl type (functions ++ [⟨head, statements, e⟩]) :: scopes⟩
  | _, _ => none

/-- Closes brackets in which no further expression stands. -/
def close : List Scope → Char → Option ItemReader
  | .args whole done :: scopes, ')' => some ⟨.more (whole done), scopes⟩
  | .record type names values :: scopes, '}' => some ⟨.more (.record type names values), scopes⟩
  | _, _ => none

/-- Reads punctuation after an expression. -/
def punct (e : Code) (scopes : List Scope) (c : Char) : Option ItemReader :=
  match c, e with
  | '.', e => some ⟨.member e, scopes⟩
  | '?', e => some ⟨.more (.attempt e), scopes⟩
  | '=', e => some ⟨.sign e '=', scopes⟩
  | '&', e => some ⟨.sign e '&', scopes⟩
  | '(', .path parts => some ⟨.operand, .args (.call parts) [] :: scopes⟩
  | '(', .field receiver name => some ⟨.operand, .args (.method receiver name) [] :: scopes⟩
  | '!', .path [name] => some ⟨.bracket name, scopes⟩
  | '{', .path parts => some ⟨.label, .record parts [] [] :: scopes⟩
  | c, e => let (e, scopes) := settle e scopes; finish e scopes c

/-- Reads the second sign of an operator.  A comparison is no operand of another one. -/
def operator (e : Code) (scopes : List Scope) (c : Char) : Option ItemReader :=
  if c = '=' then
    match settleOperand e scopes with
    | (_, .equal _ :: _) => none
    | (e, scopes) => some ⟨.operand, .equal e :: scopes⟩
  else let (e, scopes) := settle e scopes; some ⟨.operand, .both e :: scopes⟩

/-- Reads a token of a head, or the bracket that follows it or stands in its place. -/
def head (tokens : List Token) (scopes : List Scope) : Token → Option ItemReader
  | .punct '{' =>
    match scopes with
    | .top _ :: _ =>
      if tokens.head? = some (.word "impl") then some ⟨.head [], .impl tokens [] :: scopes⟩
      else if tokens.contains (.word "struct") then some ⟨.head [], .struct tokens [] :: scopes⟩
      else none
    | .impl _ _ :: _ => some ⟨.operand, .block tokens [] :: scopes⟩
    | _ => none
  | .punct '}' =>
    match tokens, scopes with
    | [], .struct head fields :: .top items :: outer =>
      some ⟨.head [], .top (items ++ [.struct head fields]) :: outer⟩
    | [], .impl head functions :: .top items :: outer =>
      some ⟨.head [], .top (items ++ [.impl head functions]) :: outer⟩
    | _, _ => none
  | token =>
    match token, scopes with
    | .punct ',', .struct head fields :: outer =>
      some ⟨.head [], .struct head (fields ++ [tokens]) :: outer⟩
    | token, _ => some ⟨.head (tokens ++ [token]), scopes⟩

/-- Reads a token. -/
def step : ItemReader → Token → Option ItemReader
  | ⟨.head tokens, scopes⟩, token => head tokens scopes token
  | ⟨.operand, scopes⟩, .string text => some ⟨.more (.string text), scopes⟩
  | ⟨.operand, scopes⟩, .word name =>
    if name = "let" then
      match scopes with
      | .block _ _ :: _ => some ⟨.binder, scopes⟩
      | _ => none
    else some ⟨.more (.path [name]), scopes⟩
  | ⟨.operand, scopes⟩, .punct c =>
    if c = '&' then some ⟨.operand, .ref :: scopes⟩ else close scopes c
  | ⟨.binder, scopes⟩, .word name => some ⟨.binding name, scopes⟩
  | ⟨.binding name, scopes⟩, .punct '=' => some ⟨.operand, .bind name :: scopes⟩
  | ⟨.part parts, scopes⟩, .word name => some ⟨.more (.path (parts ++ [name])), scopes⟩
  | ⟨.more (.path parts), scopes⟩, .sep => some ⟨.part parts, scopes⟩
  | ⟨.more e, scopes⟩, .punct c => punct e scopes c
  | ⟨.member receiver, scopes⟩, .word name => some ⟨.more (.field receiver name), scopes⟩
  | ⟨.sign e c, scopes⟩, .punct d => if d = c then operator e scopes c else none
  | ⟨.bracket name, scopes⟩, .punct '(' => some ⟨.operand, .args (.bang name) [] :: scopes⟩
  | ⟨.label, .record type names values :: scopes⟩, .word name =>
    some ⟨.colon, .record type (names ++ [name]) values :: scopes⟩
  | ⟨.label, scopes⟩, .punct c => close scopes c
  | ⟨.colon, scopes⟩, .punct ':' => some ⟨.operand, scopes⟩
  | _, _ => none

end ItemReader

/-- The items of a text. -/
def items? (text : List Char) : Option (List ModuleItem) := do
  match ← (← tokens? text).foldlM ItemReader.step ⟨.head [], [.top []]⟩ with
  | ⟨.head [], [.top items]⟩ => some items
  | _ => none

end CommandSchema.Rust
