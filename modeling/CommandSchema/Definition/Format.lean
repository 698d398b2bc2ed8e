import CommandSchema.Definition.Layout
import CommandSchema.Files.Path
import CommandSchema.Json.Source
import CommandSchema.Yaml.Source

/-!
# Formats of definition files
-/

namespace CommandSchema

/-- A format for definition files. -/
inductive DefinitionFormat
  | yaml
  | json
  deriving DecidableEq, Repr

namespace DefinitionFormat

/-- The format that the extension of a path stands for. -/
def ofPath? (p : Path) : Option DefinitionFormat :=
  match p.extension? with
  | some "yaml" | some "yml" => some .yaml
  | some "json" => some .json
  | _ => none

/-- Reads a text in a format, with what reads each of them. -/
def decode {α : Type} (readYaml : Yaml.Place → Yaml.Decoder α)
    (readJson : Json.Reading → Except Fault α) (format : DefinitionFormat) (text : String) :
    Except Fault α :=
  match format with
  | yaml => Yaml.decode readYaml text
  | json => Json.decode readJson text

/-- Reads the text of a definition file. -/
def decodeFile : DefinitionFormat → String → Except Fault DefinitionFile :=
  decode DefinitionFile.read DefinitionFile.read

end DefinitionFormat

end CommandSchema
