import CommandSchema.Document.Encoding
import CommandSchema.Json.Writer
import CommandSchema.Yaml.Writer

/-!
# Output formats

Schemas and parse results as JSON, as YAML, or as a text for people.
-/

namespace CommandSchema

/-- A format for output. -/
inductive OutputFormat
  | json
  | yaml
  | text
  deriving DecidableEq, Repr

/-- The forms of a field in a listing, aligned so that long forms start in one column. -/
def Field.spelling (f : Field) : String :=
  match f.short, f.long with
  | some c, some l => "-" ++ String.singleton c ++ ", --" ++ l
  | some c, none => "-" ++ String.singleton c
  | none, some l => "    --" ++ l
  | none, none => "<" ++ f.name ++ ">"

/-- The word for a kind in a listing. -/
def FieldKind.label : FieldKind → String
  | flag => "flag"
  | counter => "count"
  | valued t => t.name
  | positional t => t.name ++ ", positional"
  | positionalList => "list, positional"

/-- The line of a field in a listing. -/
def Field.line (f : Field) : String :=
  let spelling := String.ofList (f.spelling.toList.rightpad 24 ' ')
  let required := if f.required then ", required" else ""
  let default := (f.default.map fun v => ", default " ++ v.render).getD ""
  let description := (f.description.map ("  " ++ ·)).getD ""
  String.ofList <| Text.trimEnd
    ("  " ++ spelling ++ " " ++ f.kind.label ++ required ++ default ++ description).toList

/-- A schema as a listing with one line for each field. -/
def Schema.listing (s : Schema) : String :=
  "Schema: " ++ s.name ++ "  Fields: " ++ Text.decimal s.size ++ "\n" ++
    (s.description.map fun d => "  " ++ d ++ "\n").getD "" ++
    String.join (s.fields.map fun f => f.line ++ "\n")

/-- A schema in an output format. -/
def Schema.format (s : Schema) : OutputFormat → String
  | .json => Json.pretty s.document
  | .yaml => Yaml.write s.document
  | .text => s.listing

/-- A result in an output format. -/
def Bindings.format (b : Bindings) : OutputFormat → String
  | .json => Json.pretty b.document
  | .yaml => Yaml.write b.document
  | .text => b.render

end CommandSchema
