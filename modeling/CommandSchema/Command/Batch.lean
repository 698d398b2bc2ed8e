import CommandSchema.Document.Encoding
import CommandSchema.Parse
import CommandSchema.Rendering

/-!
# Batches

The lines of a file, each parsed by itself as a command line of words. Blank lines and lines that
start with a number sign are passed over.
-/

namespace CommandSchema

/-- A line of a batch and what became of it. -/
structure BatchRecord where
  /-- The number of the line in the file, counted from one. -/
  line : Nat
  result : Except ParseError Bindings

namespace BatchRecord

/-- Whether the line does not fit the schema. -/
def isRejected (r : BatchRecord) : Bool :=
  r.result matches .error _

/-- A record as a document. -/
def document (r : BatchRecord) : Document :=
  match r.result with
  | .ok bindings => .record [("line", .int r.line), ("args", bindings.document)]
  | .error e => .record [("line", .int r.line), ("error", .text e.message)]

/-- A record as a line of text. -/
def render (r : BatchRecord) : String :=
  Text.decimal r.line ++ ": " ++
    (match r.result with
      | .ok bindings => bindings.render
      | .error e => "error: " ++ e.message) ++ "\n"

end BatchRecord

namespace Batch

/-- The lines of a text that are command lines: their numbers and their words. -/
def commandLines (text : String) : List (Nat × List String) :=
  (Text.lines text.toList).zipIdx.filterMap fun (line, i) =>
    let line := Text.trim line
    if line.isEmpty ∨ line.head? = some '#' then none
    else some (i + 1, (Text.words line).map String.ofList)

/-- What becomes of the command lines of a text. -/
def records (s : Schema) (text : String) : List BatchRecord :=
  (commandLines text).map fun (line, tokens) => ⟨line, s.parse tokens⟩

/-- The records in an output format. -/
def render (records : List BatchRecord) : OutputFormat → String
  | .json => Json.pretty (.list (records.map BatchRecord.document)) ++ "\n"
  | .yaml => Yaml.write (.list (records.map BatchRecord.document))
  | .text => String.join (records.map BatchRecord.render)

end Batch

end CommandSchema
