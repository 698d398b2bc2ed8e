import CommandSchema.Command.Batch
import CommandSchema.Command.Complaint
import CommandSchema.Command.Invocation
import CommandSchema.Generated.Source
import CommandSchema.SchemaSet.Loading

/-!
# Commands

What each invocation does, as a function from the files before it to its output and the files after
it. Only `generate` changes files.
-/

namespace CommandSchema

/-- What an invocation prints, what it complains about, and the files after it. -/
structure Outcome where
  output : String
  complaint : Option Complaint
  files : FileTree

namespace Outcome

/-- The exit status. -/
def status (o : Outcome) : UInt32 :=
  (o.complaint.map Complaint.status).getD 0

end Outcome

namespace Command

/-- The text with a line feed at its end, unless it has one. -/
def withNewline (text : String) : String :=
  if text.toList.getLast? = some '\n' then text else text ++ "\n"

/-- A schema from definitions. -/
def schemaOf (t : FileTree) (definitions : Path) (name : String) : Except Complaint Schema := do
  let set ← (SchemaSet.ofPaths t [definitions]).mapError .load
  (set.require name).mapError .lookup

/-- The listing of all schemas, and their number. -/
def check (t : FileTree) (inputs : List Path) (format : Option OutputFormat) :
    Except Complaint String := do
  let set ← (SchemaSet.ofPaths t inputs).mapError .load
  let listing := match format with
    | some format => String.join (set.schemas.map fun s => withNewline (s.format format))
    | none => ""
  return listing ++ "Validated " ++ Text.decimal set.size ++ " schema(s) from " ++
    Text.decimal inputs.length ++ " input(s).\n"

/-- The values of one command line. -/
def parse (t : FileTree) (definitions : Path) (schema : String) (format : OutputFormat)
    (tokens : List String) : Except Complaint String := do
  let s ← schemaOf t definitions schema
  let bindings ← (s.parse tokens).mapError .rejected
  return withNewline (bindings.format format)

/-- The records of a batch. -/
def batch (t : FileTree) (definitions : Path) (schema : String) (input : Path) :
    Except Complaint (List BatchRecord) := do
  let s ← schemaOf t definitions schema
  let text ← (t.readText input).mapError (.unreadable input)
  return Batch.records s text

/-- The complaint about the records of a batch, if lines were rejected. -/
def batchComplaint? (records : List BatchRecord) : Option Complaint :=
  let rejected := (records.filter BatchRecord.isRejected).length
  if rejected = 0 then none else some (.linesRejected rejected records.length)

/-- A module that is to be written or compared. -/
structure Generation where
  schema : Schema
  structName : String
  source : String

/-- The module for a schema, under a given name or the one that the schema's name gives. -/
def generation (t : FileTree) (definitions : Path) (schema : String)
    (structName : Option String) : Except Complaint Generation := do
  let s ← schemaOf t definitions schema
  let name ← match structName with
    | some name => pure name
    | none =>
      match Generated.structName? s.name with
      | some name => pure name
      | none => throw (.invalidIdentifier ⟨s.name⟩)
  let source ← (Generated.emitAs s name).mapError .invalidIdentifier
  return ⟨s, name, source⟩

/-- Compares a module with a file. -/
def compare (t : FileTree) (g : Generation) (output : Path) : Except Complaint String := do
  let existing ← (t.readText output).mapError (.unreadable output)
  if existing = g.source then return "'" ++ output.text ++ "' is up to date.\n"
  else throw (.outdated output g.schema.name g.structName)

/-- Writes a module to a file, in a directory that is created if need be. -/
def write (t : FileTree) (g : Generation) (output : Path) : FileTree × Except Complaint String :=
  let (t, created) := match output.parent? with
    | some parent =>
      let (t, r) := t.ensureDirectories (parent.text.length + 1) parent
      (t, r.mapError (Complaint.noOutputDirectory parent))
    | none => (t, .ok ())
  match created with
  | .error e => (t, .error e)
  | .ok () =>
    match t.writeFile output g.source.toUTF8 with
    | .error e => (t, .error (.unwritable output e))
    | .ok t =>
      (t, .ok ("Generated schema `" ++ g.schema.name ++ "` into '" ++ output.text ++ "'.\n"))

/-- The outcome of something that changes no file. -/
def observed (t : FileTree) : Except Complaint String → Outcome
  | .ok output => ⟨output, none, t⟩
  | .error e => ⟨"", some e, t⟩

/-- What an invocation does. -/
def perform (t : FileTree) : Invocation → Outcome
  | .version => observed t (.ok "argbind 0.1.0\n")
  | .check inputs format => observed t (check t inputs format)
  | .parse definitions schema format tokens =>
    observed t (parse t definitions schema format tokens)
  | .batch definitions schema input format =>
    match batch t definitions schema input with
    | .ok records => ⟨Batch.render records format, batchComplaint? records, t⟩
    | .error e => ⟨"", some e, t⟩
  | .generate definitions schema structName output isCheck =>
    match generation t definitions schema structName, output with
    | .error e, _ => ⟨"", some e, t⟩
    | .ok g, none => observed t (.ok g.source)
    | .ok g, some output =>
      if isCheck then observed t (compare t g output)
      else
        let (t, r) := write t g output
        observed t r

/-- What a list of arguments, without the name of the program, does. -/
def run (t : FileTree) (arguments : List String) : Outcome :=
  match Invocation.ofArguments? false arguments with
  | some i => perform t i
  | none => ⟨"", some .usage, t⟩

end Command

end CommandSchema
