import CommandSchema.Parse.Error
import CommandSchema.Schema

/-!
# Scanning tokens

Tokens are read from left to right by a machine with three modes: between options, after an option
that waits for its value, and after the terminator, where every token is positional. The machine
keeps the positional tokens and, for each field, the value that the options have given it so far.
A run is the fold of single steps, so it stops at the first error and what follows an error cannot
change it.
-/

namespace CommandSchema.Scan

/-- What the machine expects next. -/
inductive Mode
  /-- An option or a positional token. -/
  | options
  /-- The value of the option written as `spelling`. -/
  | value (index : Nat) (type : ValueType) (spelling : String)
  /-- A positional token, whatever it looks like. -/
  | positionals
  deriving DecidableEq, Repr

/-- The state of the machine. -/
structure State where
  mode : Mode
  /-- The positional tokens so far, in order. -/
  positionals : List String
  /-- For each field in declaration order, the value that options have given it. -/
  slots : List (Option Value)
  deriving DecidableEq, Repr

namespace State

/-- The state before the first token of a command line for `size` fields. -/
def start (size : Nat) : State :=
  ⟨.options, [], List.replicate size none⟩

/-- The state with one more positional token. -/
def push (st : State) (token : String) : State :=
  { st with positionals := st.positionals ++ [token] }

/-- The state with a value for a field, in place of an earlier one. -/
def bind (st : State) (index : Nat) (value : Value) : State :=
  { st with slots := st.slots.set index (some value) }

/-- The value that a field has been given. -/
def slot (st : State) (index : Nat) : Option Value :=
  (st.slots[index]?).join

/-- The state after one more occurrence of a counter, which stops at its largest number. -/
def increment (st : State) (index : Nat) : State :=
  let n := ((st.slot index).bind Value.count?).getD 0
  st.bind index (.count (if n = 4294967295 then n else n + 1))

end State

/-- The effect of an option without a value. -/
def switch (st : State) (index : Nat) (kind : FieldKind) : State :=
  match kind with
  | .counter => st.increment index
  | _ => st.bind index (.bool true)

/-- Reads a value that belongs to the option written as `spelling`. -/
def supply (st : State) (index : Nat) (type : ValueType) (spelling raw : String) :
    Except ParseError State := do
  let value ← convertFor spelling type raw
  return { st.bind index value with mode := .options }

/-- The part of a text before its first `=`, and the part after it if there is one. -/
def splitAssignment : List Char → List Char × Option (List Char)
  | [] => ([], none)
  | '=' :: cs => ([], some cs)
  | c :: cs => let (name, value) := splitAssignment cs; (c :: name, value)

/-- Reads a long option, given without its dashes. -/
def longOption (s : Schema) (st : State) (body : List Char) : Except ParseError State :=
  let (name, attached) := splitAssignment body
  let spelling := "--" ++ String.ofList name
  match s.resolveLong (String.ofList name) with
  | none => .error (.unknownOption spelling)
  | some (index, field) =>
    match field.kind, attached with
    | .flag, none | .counter, none => .ok (switch st index field.kind)
    | .flag, some value | .counter, some value =>
      .error (.unexpectedValue spelling (String.ofList value))
    | .valued type, none => .ok { st with mode := .value index type spelling }
    | .valued type, some value => supply st index type spelling (String.ofList value)
    | .positional _, _ | .positionalList, _ => .error (.unknownOption spelling)

/-- Reads a cluster of short options, given without its dash. An option with a value ends the
cluster: the rest of the token is its value, or the next token if nothing is left. -/
def shortCluster (s : Schema) (st : State) : List Char → Except ParseError State
  | [] => .ok st
  | c :: cs =>
    let spelling := "-" ++ String.singleton c
    match s.resolveShort c with
    | none => .error (.unknownOption spelling)
    | some (index, field) =>
      match field.kind with
      | .flag | .counter => shortCluster s (switch st index field.kind) cs
      | .valued type =>
        if cs = [] then .ok { st with mode := .value index type spelling }
        else supply st index type spelling (String.ofList cs)
      | .positional _ | .positionalList => .error (.unknownOption spelling)

/-- Reads a token between options. -/
def openToken (s : Schema) (st : State) (token : String) : Except ParseError State :=
  match token.toList with
  | ['-', '-'] => .ok { st with mode := .positionals }
  | '-' :: '-' :: body => longOption s st body
  | '-' :: c :: cs => shortCluster s st (c :: cs)
  | _ => .ok (st.push token)

/-- Whether a token may be the value of the option before it: it does not start with a dash. -/
def isSeparateValue (token : String) : Bool :=
  token.toList.head? != some '-'

/-- Reads one token. -/
def step (s : Schema) (st : State) (token : String) : Except ParseError State :=
  match st.mode with
  | .positionals => .ok (st.push token)
  | .value index type spelling =>
    if isSeparateValue token then supply st index type spelling token
    else .error (.missingValue spelling)
  | .options => openToken s st token

/-- Reads tokens one after the other. -/
def run (s : Schema) (st : State) (tokens : List String) : Except ParseError State :=
  tokens.foldlM (step s) st

/-- A command line must not end while an option waits for its value. -/
def finish (st : State) : Except ParseError State :=
  match st.mode with
  | .value _ _ spelling => .error (.missingValue spelling)
  | _ => .ok st

/-- Reads a whole command line. -/
def scan (s : Schema) (tokens : List String) : Except ParseError State := do
  finish (← run s (.start s.size) tokens)

end CommandSchema.Scan
