/-!
# Identifiers of generated code

The name of the struct that stands for a schema, and the identifiers of its fields. A keyword of Rust
can be an identifier in its raw form; a few words cannot be one at all.
-/

namespace CommandSchema.Generated

/-- A name that no identifier can be made of. -/
structure InvalidIdentifier where
  name : String
  deriving DecidableEq, Repr

/-- The wording of a refusal. -/
def InvalidIdentifier.message (e : InvalidIdentifier) : String :=
  "`" ++ e.name ++ "` cannot be used as a Rust identifier"

/-- Keywords of Rust that have a raw form. -/
def rawKeywords : List String := [
  "abstract", "as", "async", "await", "become", "box", "break", "const", "continue", "do",
  "dyn", "else", "enum", "extern", "false", "final", "fn", "for", "gen", "if", "impl", "in",
  "let", "loop", "macro", "match", "mod", "move", "mut", "override", "priv", "pub", "ref",
  "return", "static", "struct", "trait", "true", "try", "type", "typeof", "unsafe", "unsized",
  "use", "virtual", "where", "while", "yield"]

/-- Words of Rust that cannot be an identifier in any form. -/
def reservedWords : List String :=
  ["_", "crate", "self", "Self", "super"]

/-- Whether a text is the name of a struct: a capital letter, then letters and digits. -/
def isStructName (name : String) : Bool :=
  match name.toList with
  | [] => false
  | c :: cs => c.isUpper && cs.all Char.isAlphanum

/-- A word with its first letter in upper case. -/
def capitalize : List Char → List Char
  | [] => []
  | c :: cs => c.toUpper :: cs

/-- The words of letters and digits in a text, each with its first letter in upper case. -/
def camelCase (text : List Char) : List Char :=
  ((text.splitOnP fun c => !c.isAlphanum).map capitalize).flatten

/-- The struct name for a schema's name, unless it would start with a digit or be empty. -/
def structName? (schemaName : String) : Option String :=
  let name := String.ofList (camelCase schemaName.toList)
  if isStructName name then some name else none

/-- The identifier of a field, unless its name cannot be one. -/
def fieldIdent? (name : String) : Option String :=
  if reservedWords.contains name then none
  else if rawKeywords.contains name then some ("r#" ++ name)
  else some name

end CommandSchema.Generated
