import CommandSchema.Files.Path
import CommandSchema.Rendering

/-!
# Invocations of the command line

What a user can ask for, and how a list of arguments says it. Options have one spelling, are given
at most once and take their value from behind an equals sign or from the next argument; a value of
the second form does not start with a dash, unless it is one.
-/

namespace CommandSchema

/-- What a command line asks for. -/
inductive Invocation
  | version
  /-- Validates definitions, and lists the schemas in a format. -/
  | check (inputs : List Path) (format : Option OutputFormat)
  /-- Parses tokens against a schema. -/
  | parse (definitions : Path) (schema : String) (format : OutputFormat) (tokens : List String)
  /-- Parses the lines of a file against a schema. -/
  | batch (definitions : Path) (schema : String) (input : Path) (format : OutputFormat)
  /-- Writes the module for a schema, or compares it with what is there. -/
  | generate (definitions : Path) (schema : String) (structName : Option String)
      (output : Option Path) (isCheck : Bool)
  deriving DecidableEq

namespace Invocation

/-- The paths that an invocation names. -/
def paths : Invocation → List Path
  | version => []
  | check inputs _ => inputs
  | parse definitions _ _ _ => [definitions]
  | batch definitions _ input _ => [definitions, input]
  | generate definitions _ _ output _ => definitions :: output.toList

/-- What one of the commands accepts besides positional arguments. -/
structure Accepted where
  /-- The names of options with a value. -/
  valued : List String
  /-- The names of options without one. -/
  switches : List String
  /-- Whether what follows a bare `--` is kept apart. -/
  hasTokens : Bool

/-- The arguments of a command, sorted. -/
structure Arguments where
  values : List (String × String)
  switches : List String
  positionals : List String
  tokens : List String

namespace Arguments

/-- No arguments. -/
def none : Arguments :=
  ⟨[], [], [], []⟩

/-- The value of an option. -/
def value? (a : Arguments) (name : String) : Option String :=
  (a.values.find? fun v => v.1 == name).map Prod.snd

/-- Whether an option without a value is given. -/
def has (a : Arguments) (name : String) : Bool :=
  a.switches.contains name

/-- The arguments with the value of an option, which is not given yet. -/
def addValue? (a : Arguments) (name value : String) : Option Arguments :=
  if (a.value? name).isSome then Option.none
  else some { a with values := a.values ++ [(name, value)] }

/-- The arguments with an option without a value, which is not given yet. -/
def addSwitch? (a : Arguments) (name : String) : Option Arguments :=
  if a.has name then Option.none else some { a with switches := a.switches ++ [name] }

end Arguments

/-- The name of the option that makes all commands more talkative. -/
def verbose : String :=
  "verbose"

/-- Whether an argument can be the value of the option before it. -/
def isValue (argument : String) : Bool :=
  argument.toList.head? != some '-' || argument == "-"

/-- The name of a long option and its value behind an equals sign. -/
def splitOption (body : List Char) : String × Option String :=
  let name := body.takeWhile (· != '=')
  match body.drop name.length with
  | '=' :: value => (String.ofList name, some (String.ofList value))
  | _ => (String.ofList name, none)

/-- Sorts the arguments of a command; there is no result if one of them does not fit. -/
def sort? (accepted : Accepted) : (arguments : List String) → Arguments → Option Arguments
  | [], a => some a
  | argument :: rest, a =>
    match argument.toList with
    | ['-', '-'] =>
      if accepted.hasTokens then some { a with tokens := rest }
      else some { a with positionals := a.positionals ++ rest }
    | '-' :: '-' :: body =>
      match splitOption body with
      | (name, some value) =>
        if accepted.valued.contains name then (a.addValue? name value).bind (sort? accepted rest)
        else none
      | (name, none) =>
        if accepted.valued.contains name then
          match rest with
          | value :: rest =>
            if isValue value then (a.addValue? name value).bind (sort? accepted rest) else none
          | [] => none
        else if accepted.switches.contains name then
          (a.addSwitch? name).bind (sort? accepted rest)
        else none
    | ['-', 'v'] => (a.addSwitch? verbose).bind (sort? accepted rest)
    | ['-'] => sort? accepted rest { a with positionals := a.positionals ++ [argument] }
    | '-' :: _ => none
    | _ => sort? accepted rest { a with positionals := a.positionals ++ [argument] }

/-- A path, which may not be empty. -/
def path? (text : String) : Option Path :=
  if text = "" then none else some ⟨text⟩

/-- The word for an output format. -/
def format? (word : String) : Option OutputFormat :=
  match word with
  | "json" => some .json
  | "yaml" => some .yaml
  | "text" => some .text
  | _ => none

/-- A number of jobs, which has to fit into 64 bits. -/
def jobs? (text : String) : Option Nat :=
  let ds := match text.toList with
    | '+' :: ds => ds
    | ds => ds
  if ds ≠ [] ∧ ds.all Char.isDigit then
    let n := ds.foldl (fun n d => n * 10 + (d.toNat - '0'.toNat)) 0
    if n < UInt64.size then some n else none
  else none

/-- An optional value, which has to be readable if it is given. -/
def optional? {α : Type} (read : String → Option α) : Option String → Option (Option α)
  | none => some none
  | some text => (read text).map some

/-- The one positional argument of a command. -/
def onlyPath? (a : Arguments) : Option Path :=
  match a.positionals with
  | [p] => path? p
  | _ => none

/-- The arguments of `check`. -/
def check? (arguments : List String) : Option Invocation := do
  let a ← sort? ⟨["format"], [verbose], false⟩ arguments .none
  let inputs ← a.positionals.mapM path?
  let format ← optional? format? (a.value? "format")
  if inputs = [] then none else return .check inputs format

/-- The arguments of `parse`. -/
def parse? (arguments : List String) : Option Invocation := do
  let a ← sort? ⟨["schema", "format"], [verbose], true⟩ arguments .none
  let definitions ← onlyPath? a
  let schema ← a.value? "schema"
  let format ← optional? format? (a.value? "format")
  return .parse definitions schema (format.getD .text) a.tokens

/-- The arguments of `batch`. The number of jobs has no effect on the result. -/
def batch? (arguments : List String) : Option Invocation := do
  let a ← sort? ⟨["schema", "input", "jobs", "format"], [verbose], false⟩ arguments .none
  let definitions ← onlyPath? a
  let schema ← a.value? "schema"
  let input ← (a.value? "input").bind path?
  let _ ← optional? jobs? (a.value? "jobs")
  let format ← optional? format? (a.value? "format")
  return .batch definitions schema input (format.getD .text)

/-- The arguments of `generate`. There is nothing to compare with if no output is named. -/
def generate? (arguments : List String) : Option Invocation := do
  let a ← sort? ⟨["schema", "struct-name", "output"], [verbose, "check"], false⟩ arguments .none
  let definitions ← onlyPath? a
  let schema ← a.value? "schema"
  let output ← optional? path? (a.value? "output")
  if a.has "check" ∧ output.isNone then none
  else return .generate definitions schema (a.value? "struct-name") output (a.has "check")

/-- What a command with its arguments asks for. -/
def ofCommand? (command : String) (arguments : List String) : Option Invocation :=
  match command with
  | "check" => check? arguments
  | "parse" => parse? arguments
  | "batch" => batch? arguments
  | "generate" => generate? arguments
  | _ => none

/-- What the letters of an argument with one dash in front of a command ask for: `some none` if more
arguments have to be read. -/
def letters? (isVerbose : Bool) : List Char → Option (Option Invocation)
  | [] => some none
  | 'V' :: _ => some (some version)
  | ['v'] => if isVerbose then none else some none
  | 'v' :: cs => if isVerbose then none else letters? true cs
  | _ => none

/-- What a list of arguments asks for, without the name of the program; there is no result if it
breaks the rules. -/
def ofArguments? (isVerbose : Bool) : List String → Option Invocation
  | [] => none
  | argument :: rest =>
    match argument.toList with
    | '-' :: '-' :: body =>
      match String.ofList body with
      | "version" => some version
      | "verbose" => if isVerbose then none else ofArguments? true rest
      | _ => none
    | '-' :: c :: cs =>
      match letters? isVerbose (c :: cs) with
      | some (some i) => some i
      | some none => ofArguments? true rest
      | none => none
    | _ => ofCommand? argument rest

end Invocation

end CommandSchema
