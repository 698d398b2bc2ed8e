import CommandSchema.Generated.Module
import CommandSchema.Parse
import CommandSchema.Proofs.Rust.Item

/-!
# Functions of Rust source

What the functions of an implementation do.  Besides `Self`, `SCHEMA` and the functions of
the implementation, names stand for what the standard library and the parser call so.
A function runs in a state that holds what has been written so far; it can end early at a
question mark, and where the source makes no sense the run is stuck.
-/

namespace CommandSchema.Rust

/-- What a function works on. -/
inductive Datum
  | bool (b : Bool)
  | u32 (n : UInt32)
  | i64 (n : Int64)
  /-- A borrowed text, and an owned one. -/
  | str (text : String)
  | string (text : String)
  /-- A borrowed list of texts, and an owned one. -/
  | slice (items : List String)
  | vec (items : List String)
  | intOption (n : Option Int64)
  | strOption (text : Option String)
  | sliceOption (items : Option (List String))
  | schema (s : Schema)
  | args (b : Bindings)
  /-- A struct, with the names and the values of its fields. -/
  | record (names : List String) (values : List Datum)
  | ok (value : Datum)
  | err (e : ParseError)
  | formatter
  | unit

/-- Why the evaluation of an expression ends early. -/
inductive Exit
  | stuck
  /-- The function returns a value. -/
  | back (value : Datum)

/-- A computation that may write. -/
abbrev Run (α : Type) : Type :=
  EStateM Exit String α

/-- A computation that makes no sense. -/
def stuck {α : Type} : Run α :=
  throw .stuck

/-- What a computation that may make no sense gives. -/
def Run.ofOption {α : Type} : Option α → Run α
  | some v => pure v
  | none => stuck

namespace Datum

open Generated (RustType)

/-- The datum that a value becomes. -/
def ofValue : Value → Datum
  | .bool b => bool b
  | .int n => i64 n
  | .count n => u32 n
  | .str text => string text
  | .list items => vec items

/-- The type of a datum, if a field of a struct may have it. -/
def type? : Datum → Option RustType
  | bool _ => some .bool
  | u32 _ => some .u32
  | i64 _ => some .i64
  | string _ => some .string
  | vec _ => some .strings
  | _ => none

/-- The field of a struct. -/
def field? (name : String) : Datum → Option Datum
  | record names values => (names.zip values).lookup name
  | _ => none

/-- Whether two data of one type are equal. -/
def equal? : Datum → Datum → Option Bool
  | bool a, bool b => some (a == b)
  | u32 a, u32 b => some (a == b)
  | i64 a, i64 b => some (a == b)
  | string a, string b => some (a == b)
  | vec a, vec b => some (a == b)
  | _, _ => none

/-- The text of a datum that is shown as it is. -/
def display? : Datum → Option String
  | bool b => some (if b then "true" else "false")
  | u32 n => some (Text.decimal n.toNat)
  | i64 n => some (Text.decimal n.toInt)
  | str text | string text => some text
  | _ => none

/-- The text of a datum that is shown to a programmer. -/
def debug? : Datum → Option String
  | str text | string text => some (Text.quote text)
  | slice items | vec items => some ("[" ++ ", ".intercalate (items.map Text.quote) ++ "]")
  | v => v.display?

/-- A format string with its arguments filled in, which are all used, in order. -/
def format? : List Char → List Datum → Option (List Char)
  | [], [] => some []
  | '{' :: '{' :: cs, vs => (format? cs vs).map ('{' :: ·)
  | '}' :: '}' :: cs, vs => (format? cs vs).map ('}' :: ·)
  | '{' :: '}' :: cs, v :: vs => do return (← v.display?).toList ++ (← format? cs vs)
  | '{' :: ':' :: '?' :: '}' :: cs, v :: vs => do return (← v.debug?).toList ++ (← format? cs vs)
  | c :: cs, vs => if c = '{' ∨ c = '}' then none else (format? cs vs).map (c :: ·)
  | _, _ => none

/-- A value in place of one that is missing.  Unless that is allowed, the run is stuck. -/
def fallBack (lenient present : Bool) (v : Datum) : Run Datum :=
  if present || lenient then pure v else stuck

/-- The methods. -/
def invoke (lenient : Bool) : Datum → String → List Datum → Run Datum
  | args b, "flag", [str name] =>
    fallBack lenient ((b.get? name).bind Value.bool?).isSome (bool (b.flag name))
  | args b, "count", [str name] =>
    fallBack lenient ((b.get? name).bind Value.count?).isSome (u32 (b.count name))
  | args b, "int", [str name] => pure (intOption (b.int? name))
  | args b, "string", [str name] => pure (strOption (b.str? name))
  | args b, "list", [str name] => pure (sliceOption (b.list? name))
  | intOption n, "unwrap_or_default", [] => fallBack lenient n.isSome (i64 (n.getD 0))
  | strOption text, "unwrap_or_default", [] => fallBack lenient text.isSome (str (text.getD ""))
  | sliceOption items, "unwrap_or_default", [] =>
    fallBack lenient items.isSome (slice (items.getD []))
  | str text, "to_string", [] => pure (string text)
  | slice items, "to_vec", [] => pure (vec items)
  | _, _, _ => stuck

/-- The functions with an exclamation mark. -/
def expand : String → List Datum → Run Datum
  | "write", formatter :: str text :: vs => do
    let written ← Run.ofOption (format? text.toList vs)
    modify (· ++ String.ofList written)
    return ok unit
  | _, _ => stuck

/-- What a question mark does. -/
def attempt : Datum → Run Datum
  | ok v => pure v
  | err e => throw (.back (err e))
  | _ => stuck

end Datum

/-- What a function can refer to besides its variables. -/
structure Context where
  /-- Whether a missing value may be replaced by a fallback. -/
  lenient : Bool
  /-- The static item `SCHEMA`. -/
  schema : Schema
  /-- The functions of the implementation. -/
  call : String → List Datum → Run Datum

namespace Context

/-- The variables and the static item. -/
def path (ctx : Context) (env : List (String × Datum)) : List String → Run Datum
  | [name] =>
    match env.lookup name with
    | some v => pure v
    | none =>
      match name with
      | "true" => pure (.bool true)
      | "false" => pure (.bool false)
      | "SCHEMA" => pure (.schema ctx.schema)
      | _ => stuck
  | _ => stuck

/-- The functions. -/
def apply (ctx : Context) : List String → List Datum → Run Datum
  | ["argbind_parser", "parse"], [.slice tokens, .schema s] =>
    match s.parse tokens with
    | .ok b => pure (.ok (.args b))
    | .error e => pure (.err e)
  | ["Ok"], [v] => pure (.ok v)
  | ["Self", name], vs => ctx.call name vs
  | _, _ => stuck

end Context

namespace Code

mutual

/-- What an expression gives. -/
def eval (ctx : Context) (env : List (String × Datum)) : Code → Run Datum
  | string text => pure (.str text)
  | path parts => ctx.path env parts
  | ref target => target.eval ctx env
  | field receiver name => do Run.ofOption ((← receiver.eval ctx env).field? name)
  | call parts args => do ctx.apply parts (← evalAll ctx env args)
  | method receiver name args => do
    Datum.invoke ctx.lenient (← receiver.eval ctx env) name (← evalAll ctx env args)
  | bang name args => do Datum.expand name (← evalAll ctx env args)
  | attempt body => do Datum.attempt (← body.eval ctx env)
  | record type names values => do
    let vs ← evalAll ctx env values
    if type = ["Self"] then return .record names vs else stuck
  | equal left right => do
    let b ← Run.ofOption (Datum.equal? (← left.eval ctx env) (← right.eval ctx env))
    return .bool b
  | both left right => do
    match ← left.eval ctx env with
    | .bool true => right.eval ctx env
    | .bool false => return .bool false
    | _ => stuck

/-- What expressions give, in order. -/
def evalAll (ctx : Context) (env : List (String × Datum)) : List Code → Run (List Datum)
  | [] => pure []
  | e :: es => do return (← e.eval ctx env) :: (← evalAll ctx env es)

end

end Code

/-- Runs statements, and then what gives the result. -/
def runBody (ctx : Context) (result : Code) :
    List (String × Datum) → List Statement → Run Datum
  | env, [] => result.eval ctx env
  | env, .bind name value :: statements => do
    let v ← value.eval ctx env
    runBody ctx result ((name, v) :: env) statements
  | env, .run value :: statements => do
    let _ ← value.eval ctx env
    runBody ctx result env statements

namespace FunctionItem

/-- The word that is a token. -/
def word? : Token → Option String
  | .word name => some name
  | _ => none

/-- The name of a function. -/
def name? (f : FunctionItem) : Option String :=
  (f.head.dropWhile (· != .word "fn")).tail.head?.bind word?

/-- The names of the parameters: between the brackets, the first word in front of each comma. -/
def parameters (f : FunctionItem) : List String :=
  let inside := (f.head.dropWhile (· != .punct '(')).tail.takeWhile (· != .punct ')')
  (inside.splitOn (.punct ',')).filterMap (·.findSome? word?)

/-- Calls a function.  A value that it returns early is its result. -/
def run (f : FunctionItem) (ctx : Context) (vs : List Datum) : Run Datum :=
  if f.parameters.length = vs.length then
    tryCatch (runBody ctx f.result (f.parameters.zip vs) f.statements) fun
      | .back v => pure v
      | .stuck => stuck
  else stuck

end FunctionItem

/-- Calls one of several functions, the last of which is declared first.  A function can
refer to those that are declared before it. -/
def callIn (lenient : Bool) (s : Schema) : List FunctionItem → String → List Datum → Run Datum
  | [], _, _ => stuck
  | f :: earlier, name, vs =>
    if f.name? = some name then f.run ⟨lenient, s, callIn lenient s earlier⟩ vs
    else callIn lenient s earlier name vs

/-! ## Evaluation in parts -/

section Evaluation

variable {ctx : Context} {env : List (String × Datum)} {α : Type}

theorem Run.bind_of_ok {β : Type} {x : Run α} {f : α → Run β} {a : α} {text text' : String}
    (h : x text = .ok a text') : (x >>= f) text = f a text' := by
  simp [bind, EStateM.bind, h]

theorem Run.pure_inj {v w : α} (h : (pure v : Run α) = pure w) : v = w :=
  (EStateM.Result.ok.inj (congrFun h "")).1

theorem evalAll_map {code : α → Code} {datum : α → Datum} {items : List α}
    (h : ∀ a ∈ items, (code a).eval ctx env = pure (datum a)) :
    Code.evalAll ctx env (items.map code) = pure (items.map datum) := by
  induction items with
  | nil => simp [Code.evalAll]
  | cons a items ih =>
      rw [List.forall_mem_cons] at h
      rw [List.map_cons, Code.evalAll, h.1, ih h.2]
      simp

/-- A conjunction is true if all its parts are. -/
theorem eval_foldl_both {code : α → Code} {p : α → Bool} {items : List α} {first : Code} {b : Bool}
    (hfirst : first.eval ctx env = pure (.bool b))
    (h : ∀ a ∈ items, (code a).eval ctx env = pure (.bool (p a))) :
    ((items.map code).foldl .both first).eval ctx env = pure (.bool (b && items.all p)) := by
  induction items generalizing first b with
  | nil => simpa using hfirst
  | cons a items ih =>
      rw [List.forall_mem_cons] at h
      have hboth : (Code.both first (code a)).eval ctx env = pure (.bool (b && p a)) := by
        rw [Code.eval, hfirst, pure_bind]
        cases b with
        | true => simpa using h.1
        | false => rfl
      rw [List.map_cons, List.foldl_cons, ih hboth h.2, List.all_cons, Bool.and_assoc]

/-- A text without braces stands for itself in a format string. -/
theorem format?_append {cs : List Char} (h : ∀ c ∈ cs, c ≠ '{' ∧ c ≠ '}') (rest : List Char)
    (vs : List Datum) :
    Datum.format? (cs ++ rest) vs = (Datum.format? rest vs).map (cs ++ ·) := by
  induction cs with
  | nil => simp
  | cons c cs ih =>
      rw [List.forall_mem_cons] at h
      rw [List.cons_append]
      simp [Datum.format?, h.1, ih h.2]
      rfl

theorem FunctionItem.run_of_ok {f : FunctionItem} {vs : List Datum} {v : Datum}
    {text text' : String} (hlength : f.parameters.length = vs.length)
    (h : runBody ctx f.result (f.parameters.zip vs) f.statements text = .ok v text') :
    f.run ctx vs text = .ok v text' := by
  rw [run, if_pos hlength]
  simp [tryCatch, tryCatchThe, MonadExceptOf.tryCatch, EStateM.tryCatch, h]

theorem FunctionItem.run_of_back {f : FunctionItem} {vs : List Datum} {v : Datum}
    {text text' : String} (hlength : f.parameters.length = vs.length)
    (h : runBody ctx f.result (f.parameters.zip vs) f.statements text = .error (.back v) text') :
    f.run ctx vs text = .ok v text' := by
  rw [run, if_pos hlength]
  simp [tryCatch, tryCatchThe, MonadExceptOf.tryCatch, EStateM.tryCatch, h]
  rfl

end Evaluation

end CommandSchema.Rust
