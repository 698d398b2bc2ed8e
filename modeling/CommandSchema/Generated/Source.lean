import CommandSchema.Generated.Module

/-!
# Generated modules as Rust source

The text of a generated module, line by line: its comment, the schema, the struct, its constructors,
equality and display.
-/

namespace CommandSchema.Generated

/-- The name of a Rust type. -/
def RustType.source : RustType → String
  | bool => "bool"
  | u32 => "u32"
  | i64 => "i64"
  | string => "String"
  | strings => "Vec<String>"

/-- The expression that reads the field called `name` out of `args`. -/
def Accessor.source (name : String) : Accessor → String
  | flag => "args.flag(" ++ Text.quote name ++ ")"
  | count => "args.count(" ++ Text.quote name ++ ")"
  | int => "args.int(" ++ Text.quote name ++ ").unwrap_or_default()"
  | str => "args.string(" ++ Text.quote name ++ ").unwrap_or_default().to_string()"
  | list => "args.list(" ++ Text.quote name ++ ").unwrap_or_default().to_vec()"

/-- The place of a value in a format string. -/
def Show.source : Show → String
  | plain => "\x7b\x7d"
  | quoted => "\x7b:?\x7d"

/-- A description as comment lines, one for each line of its text. -/
def docComment (indent text : String) : List String :=
  (Text.lines text.toList).map fun line =>
    if (Text.trim line).isEmpty then indent ++ "///"
    else indent ++ "/// " ++ String.ofList (Text.trimEnd line)

/-- An optional description as comment lines. -/
def docComment? (indent : String) (text : Option String) : List String :=
  (text.map (docComment indent)).getD []

namespace Module

/-- The opening comment and the imports. -/
def headerLines (m : Module) : List String := [
  "// @generated by argbind from schema `" ++ m.schema.name ++ "`. Do not edit by hand.",
  Fingerprint.marker ++ Fingerprint.of m.schema m.structName,
  "",
  "use std::fmt;",
  "use std::sync::LazyLock;",
  "",
  "use argbind_core::\x7b" ++ ", ".intercalate m.imports ++ "\x7d;",
  "use argbind_parser::ArgError;",
  ""]

/-- The schema as a chain of calls. -/
def schemaLines (m : Module) : List String :=
  ["static SCHEMA: LazyLock<Schema> = LazyLock::new(|| \x7b",
    "    Schema::builder(" ++ Text.quote m.schema.name ++ ")"] ++
  (m.schema.description.map fun d =>
    "        .description(" ++ Text.quote d ++ ")").toList ++
  (m.schema.fields.map fun f => "        .field(" ++ (FieldCall.ofField f).source ++ ")") ++
  ["        .build()",
    "        .expect(\"generated schema must be valid\")",
    "\x7d);",
    ""]

/-- The lines of one field of the struct. -/
def memberLines (member : Member) : List String :=
  docComment? "    " member.field.description ++
    ["    pub " ++ member.ident ++ ": " ++ (rustType member.field.kind).source ++ ","]

/-- The struct. -/
def structLines (m : Module) : List String :=
  docComment? "" m.schema.description ++
  ["#[derive(Debug, Clone)]", "pub struct " ++ m.structName ++ " \x7b"] ++
  m.sorted.flatMap memberLines ++
  ["\x7d", ""]

/-- The part of the constructor that parses and fills the fields. -/
def parseLines (m : Module) : List String :=
  if m.sorted.isEmpty then
    ["        argbind_parser::parse(tokens, Self::schema())?;",
      "        Ok(Self \x7b\x7d)"]
  else
    ["        let args = argbind_parser::parse(tokens, Self::schema())?;",
      "        Ok(Self \x7b"] ++
    (m.sorted.map fun member =>
      "            " ++ member.ident ++ ": " ++
        (accessor member.field.kind).source member.field.name ++ ",") ++
    ["        \x7d)"]

/-- The access to the schema and the constructor from tokens. -/
def constructorLines (m : Module) : List String :=
  ["impl " ++ m.structName ++ " \x7b",
    "    /// Schema the struct is parsed against.",
    "    pub fn schema() -> &'static Schema \x7b",
    "        &SCHEMA",
    "    \x7d",
    "",
    "    /// Parses command line tokens, excluding the program name.",
    "    pub fn parse_args<S: AsRef<str>>(tokens: &[S]) -> Result<Self, ArgError> \x7b"] ++
  m.parseLines ++
  ["    \x7d", "\x7d", ""]

/-- The comparison of one field. -/
def comparison (member : Member) : String :=
  "self." ++ member.ident ++ " == other." ++ member.ident

/-- The comparisons of all fields. -/
def comparisonLines (m : Module) : List String :=
  match m.sorted with
  | [] => ["    fn eq(&self, _other: &Self) -> bool \x7b", "        true"]
  | first :: rest =>
    ["    fn eq(&self, other: &Self) -> bool \x7b", "        " ++ comparison first] ++
      rest.map fun member => "            && " ++ comparison member

/-- Equality, field by field. -/
def equalityLines (m : Module) : List String :=
  ["impl PartialEq for " ++ m.structName ++ " \x7b"] ++ m.comparisonLines ++
  ["    \x7d", "\x7d", "", "impl Eq for " ++ m.structName ++ " \x7b\x7d", ""]

/-- Display, in declaration order. -/
def displayLines (m : Module) : List String :=
  ["impl fmt::Display for " ++ m.structName ++ " \x7b",
    "    fn fmt(&self, f: &mut fmt::Formatter<'_>) -> fmt::Result \x7b",
    "        write!(f, \"<" ++ m.structName ++ "\")?;"] ++
  (m.declared.map fun member =>
    "        write!(f, \" " ++ member.field.name ++ "=" ++ (showing member.field.kind).source ++
      "\", self." ++ member.ident ++ ")?;") ++
  ["        write!(f, \">\")", "    \x7d", "\x7d"]

/-- The whole text of a module. -/
def source (m : Module) : String :=
  String.join <|
    (m.headerLines ++ m.schemaLines ++ m.structLines ++ m.constructorLines ++ m.equalityLines ++
      m.displayLines).map (· ++ "\n")

end Module

/-- The source for a schema under a struct name. -/
def emitAs (s : Schema) (structName : String) : Except InvalidIdentifier String :=
  (Module.of s structName).map Module.source

/-- The source for a schema under the struct name that its own name gives. -/
def emit (s : Schema) : Except InvalidIdentifier String :=
  match structName? s.name with
  | some name => emitAs s name
  | none => .error ⟨s.name⟩

end CommandSchema.Generated
