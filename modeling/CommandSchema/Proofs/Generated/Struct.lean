import CommandSchema.Proofs.Generated.Imports
import CommandSchema.Proofs.Rust.Item

/-!
# The items of a generated module, read back

The struct, its constructors, equality and display, as the items that their lines are read
as.  Each line leads the machine on by what it adds to the item that it belongs to.
-/

namespace CommandSchema.Generated

open Rust

/-! ## The items that are written -/

/-- The tokens of the field of a struct. -/
def Member.declaration (member : Member) : List Token :=
  [.word "pub", .word member.ident, .punct ':'] ++ (rustType member.field.kind).tokens

/-- The expression that reads the field called `name` out of `args`. -/
def Accessor.code (name : String) : Accessor → Code
  | flag => .method (.path ["args"]) "flag" [.string name]
  | count => .method (.path ["args"]) "count" [.string name]
  | int => .method (.method (.path ["args"]) "int" [.string name]) "unwrap_or_default" []
  | str =>
    .method (.method (.method (.path ["args"]) "string" [.string name]) "unwrap_or_default" [])
      "to_string" []
  | list =>
    .method (.method (.method (.path ["args"]) "list" [.string name]) "unwrap_or_default" [])
      "to_vec" []

/-- The expression that gives a member its value. -/
def Member.access (member : Member) : Code :=
  (accessor member.field.kind).code member.field.name

/-- A member of the struct that a variable holds. -/
def Member.of? (name : String) (member : Member) : Code :=
  .field (.path [name]) member.ident

/-- The comparison of a member. -/
def Member.comparison (member : Member) : Code :=
  .equal (member.of? "self") (member.of? "other")

/-- The statement that writes a text and data. -/
def writeStatement (text : String) (data : List Code) : Statement :=
  .run (.attempt (.bang "write" (.path ["f"] :: .string text :: data)))

/-- The statement that writes a member. -/
def Member.showStatement (member : Member) : Statement :=
  writeStatement (" " ++ member.field.name ++ "=" ++ (showing member.field.kind).source)
    [member.of? "self"]

/-- The call of the parser. -/
def parseCode : Code :=
  .attempt (.call ["argbind_parser", "parse"] [.path ["tokens"], .call ["Self", "schema"] []])

/-- The head of the struct. -/
def structHead (name : String) : List Token :=
  [.punct '#', .punct '[', .word "derive", .punct '(', .word "Debug", .punct ',', .word "Clone",
    .punct ')', .punct ']', .word "pub", .word "struct", .word name]

/-- The head of an implementation, of a trait or of none. -/
def implHead (trait : List Token) (name : String) : List Token :=
  .word "impl" :: trait ++ [.word name]

/-- The head of the constructor from tokens. -/
def parseHead : List Token :=
  [.word "pub", .word "fn", .word "parse_args", .punct '<', .word "S", .punct ':',
    .word "AsRef", .punct '<', .word "str", .punct '>', .punct '>', .punct '(', .word "tokens",
    .punct ':', .punct '&', .punct '[', .word "S", .punct ']', .punct ')', .punct '-',
    .punct '>', .word "Result", .punct '<', .word "Self", .punct ',', .word "ArgError",
    .punct '>']

/-- The head of the function `fmt`. -/
def displayHead : List Token :=
  [.word "fn", .word "fmt", .punct '(', .punct '&', .word "self", .punct ',', .word "f",
    .punct ':', .punct '&', .word "mut", .word "fmt", .sep, .word "Formatter", .punct '<',
    .lifetime "_", .punct '>', .punct ')', .punct '-', .punct '>', .word "fmt", .sep,
    .word "Result"]

/-- The head of the function `eq`, with the name of its second parameter. -/
def equalityHead (other : String) : List Token :=
  [.word "fn", .word "eq", .punct '(', .punct '&', .word "self", .punct ',', .word other,
    .punct ':', .punct '&', .word "Self", .punct ')', .punct '-', .punct '>', .word "bool"]

/-- The function that gives access to the schema. -/
def schemaFunction : FunctionItem where
  head := [.word "pub", .word "fn", .word "schema", .punct '(', .punct ')', .punct '-',
    .punct '>', .punct '&', .lifetime "static", .word "Schema"]
  statements := []
  result := .ref (.path ["SCHEMA"])

namespace Module

variable (m : Module)

/-- The struct. -/
def structItem : ModuleItem :=
  .struct (structHead m.structName) (m.sorted.map Member.declaration)

/-- The constructor from tokens. -/
def parseFunction : FunctionItem where
  head := parseHead
  statements := if m.sorted.isEmpty then [.run parseCode] else [.bind "args" parseCode]
  result := .call ["Ok"] [.record ["Self"] (m.sorted.map Member.ident)
    (m.sorted.map Member.access)]

/-- The comparison of all members. -/
def equalityFunction : FunctionItem :=
  match m.sorted with
  | [] => ⟨equalityHead "_other", [], .path ["true"]⟩
  | first :: rest =>
    ⟨equalityHead "other", [], (rest.map Member.comparison).foldl Code.both first.comparison⟩

/-- The function that writes all members. -/
def displayFunction : FunctionItem where
  head := displayHead
  statements := writeStatement ("<" ++ m.structName) [] ::
    m.declared.map Member.showStatement
  result := .bang "write" [.path ["f"], .string ">"]

/-- All items. -/
def items : List ModuleItem :=
  [m.structItem,
    .impl (implHead [] m.structName) [schemaFunction, m.parseFunction],
    .impl (implHead [.word "PartialEq", .word "for"] m.structName) [m.equalityFunction],
    .impl (implHead [.word "Eq", .word "for"] m.structName) [],
    .impl (implHead [.word "fmt", .sep, .word "Display", .word "for"] m.structName)
      [m.displayFunction]]

end Module

/-! ## Reading the lines -/

section Lines

variable (scopes : List Scope)

/-- Comments leave the machine as it is. -/
theorem leads_docComment {indent : String} (hindent : Closed indent.toList [])
    (text : Option String) (r : ItemReader) :
    Leads ItemReader.step (unlines (docComment? indent text)).toList r r :=
  ⟨[], closed_docComment hindent text, rfl⟩

theorem leads_declarationLine {member : Member} (hident : IsIdent member.ident.toList)
    (head : List Token) (fields : List (List Token)) :
    Leads ItemReader.step
      ("    pub " ++ member.ident ++ ": " ++ (rustType member.field.kind).source ++ ",").toList
      ⟨.head [], .struct head fields :: scopes⟩
      ⟨.head [], .struct head (fields ++ [member.declaration]) :: scopes⟩ := by
  refine ⟨_, closed_declarationLine hident _, ?_⟩
  unfold Member.declaration
  cases rustType member.field.kind <;> rfl

theorem leads_memberLines {members : List Member} (h : ∀ member ∈ members, member.Readable)
    (head : List Token) (fields : List (List Token)) :
    Leads ItemReader.step (unlines (members.flatMap Module.memberLines)).toList
      ⟨.head [], .struct head fields :: scopes⟩
      ⟨.head [], .struct head (fields ++ members.map Member.declaration) :: scopes⟩ := by
  induction members generalizing fields with
  | nil => simpa using Leads.unlines_nil
  | cons member members ih =>
      rw [List.forall_mem_cons] at h
      have hindent : Closed "    ".toList [] := Closed.of_chars rfl
      have hline := leads_declarationLine scopes h.1.ident head fields
      have hrest := ih h.2 (fields ++ [member.declaration])
      rw [List.append_assoc, List.singleton_append] at hrest
      have hmember : Leads ItemReader.step (unlines (Module.memberLines member)).toList
          ⟨.head [], .struct head fields :: scopes⟩
          ⟨.head [], .struct head (fields ++ [member.declaration]) :: scopes⟩ :=
        (leads_docComment hindent member.field.description _).unlines_append
          (hline.newline.unlines_cons Leads.unlines_nil)
      rw [List.flatMap_cons]
      exact hmember.unlines_append hrest

theorem leads_valueLine {member : Member} (hident : IsIdent member.ident.toList)
    (type names : List String) (values : List Code) :
    Leads ItemReader.step ("            " ++ member.ident ++ ": " ++
        (accessor member.field.kind).source member.field.name ++ ",").toList
      ⟨.label, .record type names values :: scopes⟩
      ⟨.label, .record type (names ++ [member.ident]) (values ++ [member.access]) :: scopes⟩ := by
  refine ⟨_, closed_valueLine hident _ _, ?_⟩
  unfold Member.access
  cases accessor member.field.kind <;> rfl

theorem leads_valueLines {members : List Member} (h : ∀ member ∈ members, member.Readable)
    (type names : List String) (values : List Code) :
    Leads ItemReader.step (unlines (members.map fun member =>
        "            " ++ member.ident ++ ": " ++
          (accessor member.field.kind).source member.field.name ++ ",")).toList
      ⟨.label, .record type names values :: scopes⟩
      ⟨.label, .record type (names ++ members.map Member.ident)
        (values ++ members.map Member.access) :: scopes⟩ := by
  induction members generalizing names values with
  | nil => simpa using Leads.unlines_nil
  | cons member members ih =>
      rw [List.forall_mem_cons] at h
      have hline := leads_valueLine scopes h.1.ident type names values
      have hrest := ih h.2 (names ++ [member.ident]) (values ++ [member.access])
      simp only [List.append_assoc, List.singleton_append] at hrest
      exact hline.newline.unlines_cons hrest

theorem leads_comparisonLine {member : Member} (hident : IsIdent member.ident.toList)
    (head : List Token) (statements : List Statement) :
    Leads ItemReader.step (("        " ++ Module.comparison member).toList ++ ['\n'])
      ⟨.operand, .block head statements :: scopes⟩
      ⟨.more (member.of? "other"),
        .equal (member.of? "self") :: .block head statements :: scopes⟩ := by
  have hindent : Closed "        ".toList [] := Closed.of_chars rfl
  exact ⟨_, closed_comparisonLine hident hindent, rfl⟩

/-- What has been compared so far is the left side of the next conjunction. -/
theorem leads_conjunctionLine {scopes : List Scope} {member : Member}
    (hident : IsIdent member.ident.toList) {e whole : Code} {outer : List Scope}
    (hsettle : ItemReader.settle e scopes = (whole, outer)) :
    Leads ItemReader.step (("            && " ++ Module.comparison member).toList ++ ['\n'])
      ⟨.more e, scopes⟩
      ⟨.more (member.of? "other"), .equal (member.of? "self") :: .both whole :: outer⟩ := by
  have hand : Closed "            && ".toList [.punct '&', .punct '&'] := Closed.of_chars rfl
  refine ⟨_, closed_comparisonLine hident hand, ?_⟩
  have hoperator : ItemReader.operator e scopes '&' = some ⟨.operand, .both whole :: outer⟩ := by
    simp [ItemReader.operator, hsettle]
  have hopen : [Token.punct '&', .punct '&'].foldlM ItemReader.step ⟨.more e, scopes⟩ =
      some ⟨.operand, .both whole :: outer⟩ := by
    simp [ItemReader.step, ItemReader.punct, hoperator]
  rw [List.foldlM_append, hopen]
  rfl

theorem leads_conjunctionLines {scopes : List Scope} {members : List Member}
    (h : ∀ member ∈ members, member.Readable) {e whole : Code} {outer : List Scope}
    (hsettle : ItemReader.settle e scopes = (whole, outer)) :
    ∃ last scopes', Leads ItemReader.step (unlines (members.map fun member =>
        "            && " ++ Module.comparison member)).toList
      ⟨.more e, scopes⟩ ⟨.more last, scopes'⟩ ∧
      ItemReader.settle last scopes' =
        ((members.map Member.comparison).foldl Code.both whole, outer) := by
  induction members generalizing e whole scopes with
  | nil => exact ⟨e, scopes, Leads.unlines_nil, hsettle⟩
  | cons member members ih =>
      rw [List.forall_mem_cons] at h
      have hline := leads_conjunctionLine h.1.ident hsettle
      have hnext : ItemReader.settle (member.of? "other")
          (.equal (member.of? "self") :: .both whole :: outer) =
            (.both whole member.comparison, outer) := rfl
      obtain ⟨last, scopes', hrest, hlast⟩ := ih h.2 hnext
      exact ⟨last, scopes', hline.unlines_cons hrest, hlast⟩

theorem leads_showLines {members : List Member} (h : ∀ member ∈ members, member.Readable)
    (head : List Token) (statements : List Statement) :
    Leads ItemReader.step (unlines (members.map fun member =>
        "        write!(f, \" " ++ member.field.name ++ "=" ++
          (showing member.field.kind).source ++ "\", self." ++ member.ident ++ ")?;")).toList
      ⟨.operand, .block head statements :: scopes⟩
      ⟨.operand, .block head (statements ++ members.map Member.showStatement) :: scopes⟩ := by
  induction members generalizing statements with
  | nil => simpa using Leads.unlines_nil
  | cons member members ih =>
      rw [List.forall_mem_cons] at h
      have hline : Leads ItemReader.step ("        write!(f, \" " ++ member.field.name ++ "=" ++
            (showing member.field.kind).source ++ "\", self." ++ member.ident ++ ")?;").toList
          ⟨.operand, .block head statements :: scopes⟩
          ⟨.operand, .block head (statements ++ [member.showStatement]) :: scopes⟩ :=
        ⟨_, closed_showLine h.1, rfl⟩
      have hrest := ih h.2 (statements ++ [member.showStatement])
      rw [List.append_assoc, List.singleton_append] at hrest
      exact hline.newline.unlines_cons hrest

end Lines

/-! ## Reading the items -/

theorem leads_empty (r : ItemReader) : Leads ItemReader.step ("".toList ++ ['\n']) r r :=
  Leads.newline (Leads.of_chars ⟨_, rfl, rfl⟩)

theorem closed_braceLine {front name : String} {tokens : List Token} (hname : IsWord name.toList)
    (hfront : Closed front.toList tokens) :
    Closed (front ++ name ++ " \x7b").toList (tokens ++ [.word name, .punct '\x7b']) := by
  have hbrace : " \x7b".toList = [' ', '\x7b'] := String.toList_ofList
  have hopen : Closed " \x7b".toList [.punct '\x7b'] := Closed.of_chars rfl
  exact (IsIdent.plain hname).closed_line hfront hbrace (by decide) hopen

namespace Module

variable {m : Module}

theorem leads_structLines (h : m.Readable) (items : List ModuleItem) :
    Leads ItemReader.step (unlines m.structLines).toList ⟨.head [], [.top items]⟩
      ⟨.head [], [.top (items ++ [m.structItem])]⟩ := by
  have hindent : Closed "".toList [] := Closed.of_chars rfl
  have hdoc := leads_docComment hindent m.schema.description ⟨.head [], [.top items]⟩
  have hderive : Leads ItemReader.step "#[derive(Debug, Clone)]".toList
      ⟨.head [], [.top items]⟩ ⟨.head [.punct '#', .punct '[', .word "derive", .punct '(',
        .word "Debug", .punct ',', .word "Clone", .punct ')', .punct ']'], [.top items]⟩ :=
    Leads.of_chars ⟨_, rfl, rfl⟩
  have hstruct : Closed "pub struct ".toList [.word "pub", .word "struct"] := Closed.of_chars rfl
  have hname := closed_braceLine h.structName hstruct
  have hhead := hdoc.unlines_append (hderive.newline.unlines_cons
    ((Leads.newline ⟨_, hname, rfl⟩).unlines_cons Leads.unlines_nil))
  have hmembers := leads_memberLines [.top items] h.sorted (structHead m.structName) []
  have hclose : Leads ItemReader.step "\x7d".toList
      ⟨.head [], [.struct (structHead m.structName) (m.sorted.map Member.declaration),
        .top items]⟩
      ⟨.head [], [.top (items ++ [m.structItem])]⟩ := Leads.of_chars ⟨_, rfl, rfl⟩
  exact (hhead.unlines_append hmembers).unlines_append
    (hclose.newline.unlines_cons ((leads_empty _).unlines_cons Leads.unlines_nil))

theorem leads_parseCode (scopes : List Scope) :
    Leads ItemReader.step "argbind_parser::parse(tokens, Self::schema())?".toList
      ⟨.operand, scopes⟩ ⟨.more parseCode, scopes⟩ :=
  Leads.of_chars ⟨_, rfl, rfl⟩

/-- The statements and the result of the constructor. -/
theorem leads_parseLines (h : m.Readable) (head : List Token) (scopes : List Scope) :
    Leads ItemReader.step (unlines m.parseLines).toList ⟨.operand, .block head [] :: scopes⟩
      ⟨.more m.parseFunction.result, .block head m.parseFunction.statements :: scopes⟩ := by
  unfold parseLines parseFunction
  cases hsorted : m.sorted with
  | nil =>
      have hindent : Leads ItemReader.step "        ".toList ⟨.operand, .block head [] :: scopes⟩
          ⟨.operand, .block head [] :: scopes⟩ := Leads.of_chars ⟨_, rfl, rfl⟩
      have hend : Leads ItemReader.step ";".toList ⟨.more parseCode, .block head [] :: scopes⟩
          ⟨.operand, .block head [.run parseCode] :: scopes⟩ := Leads.of_chars ⟨_, rfl, rfl⟩
      have hparse : Leads ItemReader.step
          "        argbind_parser::parse(tokens, Self::schema())?;".toList
          ⟨.operand, .block head [] :: scopes⟩ ⟨.operand, .block head [.run parseCode] :: scopes⟩ := by
        have hsplit : "        argbind_parser::parse(tokens, Self::schema())?;" =
            "        " ++ "argbind_parser::parse(tokens, Self::schema())?" ++ ";" := rfl
        rw [hsplit, String.toList_append, String.toList_append, List.append_assoc]
        exact hindent.trans ((leads_parseCode _).trans hend)
      have hok : Leads ItemReader.step "        Ok(Self \x7b\x7d)".toList
          ⟨.operand, .block head [.run parseCode] :: scopes⟩
          ⟨.more (.call ["Ok"] [.record ["Self"] [] []]), .block head [.run parseCode] :: scopes⟩ :=
        Leads.of_chars ⟨_, rfl, rfl⟩
      exact hparse.newline.unlines_cons (hok.newline.unlines_cons Leads.unlines_nil)
  | cons first rest =>
      have hreadable := h.sorted
      rw [hsorted] at hreadable
      have hlet : Leads ItemReader.step "        let args = ".toList
          ⟨.operand, .block head [] :: scopes⟩
          ⟨.operand, .bind "args" :: .block head [] :: scopes⟩ := Leads.of_chars ⟨_, rfl, rfl⟩
      have hend : Leads ItemReader.step ";".toList
          ⟨.more parseCode, .bind "args" :: .block head [] :: scopes⟩
          ⟨.operand, .block head [.bind "args" parseCode] :: scopes⟩ := Leads.of_chars ⟨_, rfl, rfl⟩
      have hparse : Leads ItemReader.step
          "        let args = argbind_parser::parse(tokens, Self::schema())?;".toList
          ⟨.operand, .block head [] :: scopes⟩
          ⟨.operand, .block head [.bind "args" parseCode] :: scopes⟩ := by
        have hsplit : "        let args = argbind_parser::parse(tokens, Self::schema())?;" =
            "        let args = " ++ "argbind_parser::parse(tokens, Self::schema())?" ++ ";" := rfl
        rw [hsplit, String.toList_append, String.toList_append, List.append_assoc]
        exact hlet.trans ((leads_parseCode _).trans hend)
      have hok : Leads ItemReader.step "        Ok(Self \x7b".toList
          ⟨.operand, .block head [.bind "args" parseCode] :: scopes⟩
          ⟨.label, .record ["Self"] [] [] :: .args (.call ["Ok"]) [] ::
            .block head [.bind "args" parseCode] :: scopes⟩ := Leads.of_chars ⟨_, rfl, rfl⟩
      have hvalues := leads_valueLines (.args (.call ["Ok"]) [] ::
        .block head [.bind "args" parseCode] :: scopes) hreadable ["Self"] [] []
      have hclose : ∀ names values, Leads ItemReader.step "        \x7d)".toList
          ⟨.label, .record ["Self"] names values :: .args (.call ["Ok"]) [] ::
            .block head [.bind "args" parseCode] :: scopes⟩
          ⟨.more (.call ["Ok"] [.record ["Self"] names values]),
            .block head [.bind "args" parseCode] :: scopes⟩ :=
        fun _ _ => Leads.of_chars ⟨_, rfl, rfl⟩
      exact ((hparse.newline.unlines_cons (hok.newline.unlines_cons
        Leads.unlines_nil)).unlines_append hvalues).unlines_append
          ((hclose _ _).newline.unlines_cons Leads.unlines_nil)

/-- The end of a function, and the end of its implementation. -/
theorem leads_endLines {head : List Token} {statements : List Statement} {result : Code}
    {r : ItemReader} (type : List Token) (functions : List FunctionItem)
    (items : List ModuleItem)
    (hr : Leads ItemReader.step "    \x7d".toList r
      ⟨.head [], [.impl type (functions ++ [⟨head, statements, result⟩]), .top items]⟩) :
    Leads ItemReader.step (unlines ["    \x7d", "\x7d"]).toList r
      ⟨.head [], [.top (items ++ [.impl type (functions ++ [⟨head, statements, result⟩])])]⟩ := by
  have hclose : Leads ItemReader.step "\x7d".toList
      ⟨.head [], [.impl type (functions ++ [⟨head, statements, result⟩]), .top items]⟩
      ⟨.head [], [.top (items ++ [.impl type (functions ++ [⟨head, statements, result⟩])])]⟩ :=
    Leads.of_chars ⟨_, rfl, rfl⟩
  exact hr.newline.unlines_cons (hclose.newline.unlines_cons Leads.unlines_nil)

theorem leads_schemaLines (type : List Token) (items : List ModuleItem) :
    Leads ItemReader.step (unlines ["    /// Schema the struct is parsed against.",
        "    pub fn schema() -> &'static Schema \x7b", "        &SCHEMA", "    \x7d", ""]).toList
      ⟨.head [], [.impl type [], .top items]⟩
      ⟨.head [], [.impl type [schemaFunction], .top items]⟩ := by
  have hdoc : Leads ItemReader.step
      ("    /// Schema the struct is parsed against.".toList ++ ['\n'])
      ⟨.head [], [.impl type [], .top items]⟩ ⟨.head [], [.impl type [], .top items]⟩ := by
    rw [String.toList_ofList]
    exact ⟨[], rfl, rfl⟩
  have hhead : Leads ItemReader.step "    pub fn schema() -> &'static Schema \x7b".toList
      ⟨.head [], [.impl type [], .top items]⟩
      ⟨.operand, [.block schemaFunction.head [], .impl type [], .top items]⟩ :=
    Leads.of_chars ⟨_, rfl, rfl⟩
  have hstatic : Leads ItemReader.step ("        &SCHEMA".toList ++ ['\n'])
      ⟨.operand, [.block schemaFunction.head [], .impl type [], .top items]⟩
      ⟨.more (.path ["SCHEMA"]), [.ref, .block schemaFunction.head [], .impl type [],
        .top items]⟩ := by
    rw [String.toList_ofList]
    exact ⟨_, rfl, rfl⟩
  have hclose : Leads ItemReader.step "    \x7d".toList
      ⟨.more (.path ["SCHEMA"]), [.ref, .block schemaFunction.head [], .impl type [], .top items]⟩
      ⟨.head [], [.impl type [schemaFunction], .top items]⟩ := Leads.of_chars ⟨_, rfl, rfl⟩
  exact hdoc.unlines_cons (hhead.newline.unlines_cons (hstatic.unlines_cons
    (hclose.newline.unlines_cons ((leads_empty _).unlines_cons Leads.unlines_nil))))

theorem leads_signatureLines (type : List Token) (functions : List FunctionItem)
    (items : List ModuleItem) :
    Leads ItemReader.step (unlines [
        "    /// Parses command line tokens, excluding the program name.",
        "    pub fn parse_args<S: AsRef<str>>(tokens: &[S]) -> Result<Self, ArgError> \x7b"]).toList
      ⟨.head [], [.impl type functions, .top items]⟩
      ⟨.operand, [.block parseHead [], .impl type functions, .top items]⟩ := by
  have hdoc : Leads ItemReader.step
      ("    /// Parses command line tokens, excluding the program name.".toList ++ ['\n'])
      ⟨.head [], [.impl type functions, .top items]⟩
      ⟨.head [], [.impl type functions, .top items]⟩ := by
    rw [String.toList_ofList]
    exact ⟨[], rfl, rfl⟩
  have harguments : Leads ItemReader.step "    pub fn parse_args<S: AsRef<str>>(tokens: &[S])".toList
      ⟨.head [], [.impl type functions, .top items]⟩
      ⟨.head (parseHead.take 19), [.impl type functions, .top items]⟩ :=
    Leads.of_chars ⟨_, rfl, rfl⟩
  have hresult : Leads ItemReader.step " -> Result<Self, ArgError> \x7b".toList
      ⟨.head (parseHead.take 19), [.impl type functions, .top items]⟩
      ⟨.operand, [.block parseHead [], .impl type functions, .top items]⟩ :=
    Leads.of_chars ⟨_, rfl, rfl⟩
  have hsplit : "    pub fn parse_args<S: AsRef<str>>(tokens: &[S]) -> Result<Self, ArgError> \x7b" =
      "    pub fn parse_args<S: AsRef<str>>(tokens: &[S])" ++ " -> Result<Self, ArgError> \x7b" :=
    rfl
  refine hdoc.unlines_cons (Leads.unlines_cons ?_ Leads.unlines_nil)
  rw [hsplit, String.toList_append]
  exact (harguments.trans hresult).newline

theorem leads_constructorLines (h : m.Readable) (items : List ModuleItem) :
    Leads ItemReader.step (unlines m.constructorLines).toList ⟨.head [], [.top items]⟩
      ⟨.head [], [.top (items ++ [.impl (implHead [] m.structName)
        [schemaFunction, m.parseFunction]])]⟩ := by
  have himpl : Closed "impl ".toList [.word "impl"] := Closed.of_chars rfl
  have hopen : Leads ItemReader.step ("impl " ++ m.structName ++ " \x7b").toList
      ⟨.head [], [.top items]⟩ ⟨.head [], [.impl (implHead [] m.structName) [], .top items]⟩ :=
    ⟨_, closed_braceLine h.structName himpl, rfl⟩
  have hhead := hopen.newline.unlines_cons
    ((leads_schemaLines (implHead [] m.structName) items).unlines_append
      (leads_signatureLines (implHead [] m.structName) [schemaFunction] items))
  have hparse := leads_parseLines h parseHead
    [.impl (implHead [] m.structName) [schemaFunction], .top items]
  have hend : Leads ItemReader.step "    \x7d".toList
      ⟨.more m.parseFunction.result, [.block parseHead m.parseFunction.statements,
        .impl (implHead [] m.structName) [schemaFunction], .top items]⟩
      ⟨.head [], [.impl (implHead [] m.structName) ([schemaFunction] ++ [m.parseFunction]),
        .top items]⟩ := Leads.of_chars ⟨_, rfl, rfl⟩
  have hclose := leads_endLines _ [schemaFunction] items hend
  have hlines := ((hhead.unlines_append hparse).unlines_append hclose).unlines_append
    ((leads_empty _).unlines_cons Leads.unlines_nil)
  rw [List.append_assoc] at hlines
  exact hlines

/-- The comparison ends with a brace; without members it is a word, which the brace ends. -/
theorem exists_leads_comparisonLines (h : m.Readable) (type : List Token)
    (items : List ModuleItem) :
    ∃ r, Leads ItemReader.step (unlines m.comparisonLines).toList
        ⟨.head [], [.impl type [], .top items]⟩ r ∧
      Leads ItemReader.step "    \x7d".toList r
        ⟨.head [], [.impl type [m.equalityFunction], .top items]⟩ := by
  unfold comparisonLines equalityFunction
  cases hsorted : m.sorted with
  | nil =>
      have hsignature : Leads ItemReader.step
          "    fn eq(&self, _other: &Self) -> bool \x7b".toList
          ⟨.head [], [.impl type [], .top items]⟩
          ⟨.operand, [.block (equalityHead "_other") [], .impl type [], .top items]⟩ :=
        Leads.of_chars ⟨_, rfl, rfl⟩
      have htrue : Leads ItemReader.step ("        true".toList ++ ['\n'])
          ⟨.operand, [.block (equalityHead "_other") [], .impl type [], .top items]⟩
          ⟨.more (.path ["true"]), [.block (equalityHead "_other") [], .impl type [],
            .top items]⟩ := by
        rw [String.toList_ofList]
        exact ⟨_, rfl, rfl⟩
      exact ⟨_, hsignature.newline.unlines_cons (htrue.unlines_cons Leads.unlines_nil),
        Leads.of_chars ⟨_, rfl, rfl⟩⟩
  | cons first rest =>
      have hreadable := h.sorted
      rw [hsorted, List.forall_mem_cons] at hreadable
      have hsignature : Leads ItemReader.step
          "    fn eq(&self, other: &Self) -> bool \x7b".toList
          ⟨.head [], [.impl type [], .top items]⟩
          ⟨.operand, [.block (equalityHead "other") [], .impl type [], .top items]⟩ :=
        Leads.of_chars ⟨_, rfl, rfl⟩
      have hfirst := leads_comparisonLine [.impl type [], .top items] hreadable.1.ident
        (equalityHead "other") []
      have hsettle : ItemReader.settle (first.of? "other")
          [.equal (first.of? "self"), .block (equalityHead "other") [], .impl type [],
            .top items] =
          (first.comparison, [.block (equalityHead "other") [], .impl type [], .top items]) := rfl
      obtain ⟨last, scopes, hrest, hlast⟩ := leads_conjunctionLines hreadable.2 hsettle
      refine ⟨⟨.more last, scopes⟩, (hsignature.newline.unlines_cons (hfirst.unlines_cons
        Leads.unlines_nil)).unlines_append hrest, Leads.of_chars ⟨[.punct '\x7d'], rfl, ?_⟩⟩
      simp [ItemReader.step, ItemReader.punct, hlast, ItemReader.finish]

theorem leads_equalityLines (h : m.Readable) (items : List ModuleItem) :
    Leads ItemReader.step (unlines m.equalityLines).toList ⟨.head [], [.top items]⟩
      ⟨.head [], [.top (items ++
        [.impl (implHead [.word "PartialEq", .word "for"] m.structName) [m.equalityFunction],
          .impl (implHead [.word "Eq", .word "for"] m.structName) []])]⟩ := by
  have hpartial : Closed "impl PartialEq for ".toList
      [.word "impl", .word "PartialEq", .word "for"] := Closed.of_chars rfl
  have heq : Closed "impl Eq for ".toList [.word "impl", .word "Eq", .word "for"] :=
    Closed.of_chars rfl
  have hbraces : " \x7b\x7d".toList = [' ', '\x7b', '\x7d'] := String.toList_ofList
  have hempty : Closed " \x7b\x7d".toList [.punct '\x7b', .punct '\x7d'] := Closed.of_chars rfl
  have hopen : Leads ItemReader.step ("impl PartialEq for " ++ m.structName ++ " \x7b").toList
      ⟨.head [], [.top items]⟩ ⟨.head [], [.impl (implHead [.word "PartialEq", .word "for"]
        m.structName) [], .top items]⟩ :=
    ⟨_, closed_braceLine h.structName hpartial, rfl⟩
  obtain ⟨r, hcomparison, hend⟩ := exists_leads_comparisonLines h
    (implHead [.word "PartialEq", .word "for"] m.structName) items
  have hlast : Leads ItemReader.step ("impl Eq for " ++ m.structName ++ " \x7b\x7d").toList
      ⟨.head [], [.top (items ++ [.impl (implHead [.word "PartialEq", .word "for"] m.structName)
        [m.equalityFunction]])]⟩
      ⟨.head [], [.top (items ++ [.impl (implHead [.word "PartialEq", .word "for"] m.structName)
        [m.equalityFunction]] ++ [.impl (implHead [.word "Eq", .word "for"] m.structName) []])]⟩ :=
    ⟨_, (IsIdent.plain h.structName).closed_line heq hbraces (by decide) hempty, rfl⟩
  have hlines := (((hopen.newline.unlines_cons Leads.unlines_nil).unlines_append
    hcomparison).unlines_append (leads_endLines _ [] items hend)).unlines_append
      ((leads_empty _).unlines_cons (hlast.newline.unlines_cons
        ((leads_empty _).unlines_cons Leads.unlines_nil)))
  simpa only [equalityLines, List.append_assoc, List.cons_append, List.nil_append] using hlines

theorem leads_displayLines (h : m.Readable) (items : List ModuleItem) :
    Leads ItemReader.step (unlines m.displayLines).toList ⟨.head [], [.top items]⟩
      ⟨.head [], [.top (items ++ [.impl
        (implHead [.word "fmt", .sep, .word "Display", .word "for"] m.structName)
        [m.displayFunction]])]⟩ := by
  have himpl : Closed "impl fmt::Display for ".toList
      [.word "impl", .word "fmt", .sep, .word "Display", .word "for"] := Closed.of_chars rfl
  have hopen : Leads ItemReader.step ("impl fmt::Display for " ++ m.structName ++ " \x7b").toList
      ⟨.head [], [.top items]⟩ ⟨.head [], [.impl (implHead [.word "fmt", .sep, .word "Display",
        .word "for"] m.structName) [], .top items]⟩ :=
    ⟨_, closed_braceLine h.structName himpl, rfl⟩
  have hsignature : ∀ type, Leads ItemReader.step
      "    fn fmt(&self, f: &mut fmt::Formatter<'_>) -> fmt::Result \x7b".toList
      ⟨.head [], [.impl type [], .top items]⟩
      ⟨.operand, [.block displayHead [], .impl type [], .top items]⟩ := by
    intro type
    have harguments : Leads ItemReader.step "    fn fmt(&self, f: &mut fmt::Formatter<'_>)".toList
        ⟨.head [], [.impl type [], .top items]⟩
        ⟨.head (displayHead.take 17), [.impl type [], .top items]⟩ := Leads.of_chars ⟨_, rfl, rfl⟩
    have hresult : Leads ItemReader.step " -> fmt::Result \x7b".toList
        ⟨.head (displayHead.take 17), [.impl type [], .top items]⟩
        ⟨.operand, [.block displayHead [], .impl type [], .top items]⟩ :=
      Leads.of_chars ⟨_, rfl, rfl⟩
    have hsplit : "    fn fmt(&self, f: &mut fmt::Formatter<'_>) -> fmt::Result \x7b" =
        "    fn fmt(&self, f: &mut fmt::Formatter<'_>)" ++ " -> fmt::Result \x7b" := rfl
    rw [hsplit, String.toList_append]
    exact harguments.trans hresult
  have hname : ∀ scopes, Leads ItemReader.step
      ("        write!(f, \"<" ++ m.structName ++ "\")?;").toList
      ⟨.operand, .block displayHead [] :: scopes⟩
      ⟨.operand, .block displayHead [writeStatement ("<" ++ m.structName) []] :: scopes⟩ :=
    fun _ => ⟨_, closed_openLine h.structName, rfl⟩
  have hmembers := leads_showLines [.impl (implHead [.word "fmt", .sep, .word "Display",
    .word "for"] m.structName) [], .top items] h.members displayHead
      [writeStatement ("<" ++ m.structName) []]
  have hwrite : ∀ head statements scopes, Leads ItemReader.step "        write!(f, \">\")".toList
      ⟨.operand, .block head statements :: scopes⟩
      ⟨.more m.displayFunction.result, .block head statements :: scopes⟩ :=
    fun _ _ _ => Leads.of_chars ⟨_, rfl, rfl⟩
  have hend : ∀ type, Leads ItemReader.step "    \x7d".toList
      ⟨.more m.displayFunction.result, [.block displayHead m.displayFunction.statements,
        .impl type [], .top items]⟩
      ⟨.head [], [.impl type ([] ++ [m.displayFunction]), .top items]⟩ :=
    fun _ => Leads.of_chars ⟨_, rfl, rfl⟩
  exact ((hopen.newline.unlines_cons ((hsignature _).newline.unlines_cons
    ((hname _).newline.unlines_cons Leads.unlines_nil))).unlines_append hmembers).unlines_append
      ((hwrite _ _ _).newline.unlines_cons (leads_endLines _ [] items (hend _)))

/-- The lines of the items are read as the items. -/
theorem items?_itemLines (h : m.Readable) : items? (unlines m.itemLines).toList = some m.items := by
  have hlines := (((leads_structLines h []).unlines_append
    (leads_constructorLines h _)).unlines_append (leads_equalityLines h _)).unlines_append
      (leads_displayLines h _)
  obtain ⟨tokens, hclosed, hfold⟩ := hlines
  rw [items?, itemLines, hclosed.tokens?_eq, Option.bind_eq_bind, Option.bind_some, hfold]
  rfl

end Module

end CommandSchema.Generated
