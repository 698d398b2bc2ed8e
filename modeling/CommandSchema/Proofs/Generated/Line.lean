import CommandSchema.Generated.Source
import CommandSchema.Proofs.Rust.Line
import CommandSchema.Proofs.Rust.Literal
import CommandSchema.Proofs.Schema.Consistency
import CommandSchema.Proofs.Text.Blank

/-!
# Lines of generated modules

The tokens of the lines that depend on a schema.  Names are written as they are, and what
they may hold keeps them apart from what stands next to them; descriptions are comments,
line by line.
-/

namespace CommandSchema.Generated

open Rust

/-! ## Identifiers -/

theorem isWord_fieldName {name : String} (h : isFieldName name = true) : IsWord name.toList := by
  unfold isFieldName at h
  split at h
  · cases h
  · rename_i c cs hname
    simp only [Bool.and_eq_true, List.all_eq_true] at h
    obtain ⟨hc, hcs⟩ := h
    refine ⟨⟨c, cs, hname, hc⟩, ?_⟩
    rw [hname, List.forall_mem_cons]
    refine ⟨?_, hcs⟩
    simp only [Bool.or_eq_true] at hc
    rcases hc with hc | hc <;> simp [isWordPart, Char.isAlphanum, hc]

theorem isWord_structName {name : String} (h : isStructName name = true) :
    IsWord name.toList := by
  unfold isStructName at h
  split at h
  · cases h
  · rename_i c cs hname
    simp only [Bool.and_eq_true, List.all_eq_true] at h
    obtain ⟨hc, hcs⟩ := h
    have hletter : c.isAlpha = true := (Bool.or_eq_true _ _).mpr (Or.inl hc)
    refine ⟨⟨c, cs, hname, by simp [isWordStart, hletter]⟩, ?_⟩
    rw [hname, List.forall_mem_cons]
    exact ⟨by simp [isWordPart, Char.isAlphanum, hletter],
      fun d hd => by simp [isWordPart, hcs d hd]⟩

theorem isIdent_fieldIdent {name ident : String} (hname : isFieldName name = true)
    (h : fieldIdent? name = some ident) : IsIdent ident.toList := by
  have hword := isWord_fieldName hname
  unfold fieldIdent? at h
  split_ifs at h with hreserved hraw
  · obtain rfl := Option.some.inj h
    rw [String.toList_append]
    exact .raw hword
  · obtain rfl := Option.some.inj h
    exact .plain hword

/-- The characters of a name need no escape in a literal. -/
theorem not_mem_of_isWordPart {c : Char} (h : isWordPart c = true) :
    c ∉ ['"', '\\', '\r'] := by
  simp only [List.mem_cons, not_or, List.not_mem_nil, not_false_eq_true, and_true]
  refine ⟨?_, ?_, ?_⟩ <;> rintro rfl <;> revert h <;> decide

/-- A member with an identifier that can be read back. -/
structure Member.Readable (member : Member) : Prop where
  ident : IsIdent member.ident.toList
  name : isFieldName member.field.name = true

theorem Member.readable_of {f : Field} {member : Member} (hf : f.WellFormed)
    (h : Member.of f = .ok member) : member.Readable := by
  unfold Member.of at h
  split at h
  · rename_i ident hident
    obtain rfl := Except.ok.inj h
    exact ⟨isIdent_fieldIdent hf.name hident, hf.name⟩
  · cases h

/-! ## Comments -/

theorem closed_commentLine {indent : String} (hindent : Closed indent.toList [])
    {cs : List Char} (h : '\n' ∉ cs) :
    Closed (indent.toList ++ ('/' :: '/' :: cs) ++ ['\n']) [] := by
  rw [List.append_assoc]
  exact hindent.append (closed_comment h)

theorem closed_docComment {indent : String} (hindent : Closed indent.toList [])
    (text : Option String) : Closed (unlines (docComment? indent text)).toList [] := by
  cases text with
  | none => rfl
  | some text =>
      refine closed_unlines_of_forall fun line hline => ?_
      obtain ⟨content, hcontent, rfl⟩ := List.mem_map.mp hline
      have hslashes : "///".toList = ['/', '/', '/'] := String.toList_ofList
      have hspaced : "/// ".toList = ['/', '/', '/', ' '] := String.toList_ofList
      split
      · rw [String.toList_append, hslashes]
        exact closed_commentLine hindent (by decide)
      · have hnot : '\n' ∉ '/' :: ' ' :: Text.trimEnd content := by
          simpa using fun hmem => Text.newline_not_mem_lines hcontent (Text.mem_of_mem_trimEnd hmem)
        have hclosed := closed_commentLine hindent hnot
        rw [String.toList_append, String.toList_append, hspaced, String.toList_ofList]
        simp only [List.append_assoc, List.cons_append, List.nil_append] at hclosed ⊢
        exact hclosed

/-! ## Members -/

/-- The tokens of a type. -/
def RustType.tokens : RustType → List Token
  | bool => [.word "bool"]
  | u32 => [.word "u32"]
  | i64 => [.word "i64"]
  | string => [.word "String"]
  | strings => [.word "Vec", .punct '<', .word "String", .punct '>']

/-- The tokens of the expression that reads the field called `name` out of `args`. -/
def Accessor.tokens (name : String) : Accessor → List Token
  | flag => [.word "args", .punct '.', .word "flag", .punct '(', .string name, .punct ')']
  | count => [.word "args", .punct '.', .word "count", .punct '(', .string name, .punct ')']
  | int =>
    [.word "args", .punct '.', .word "int", .punct '(', .string name, .punct ')', .punct '.',
      .word "unwrap_or_default", .punct '(', .punct ')']
  | str =>
    [.word "args", .punct '.', .word "string", .punct '(', .string name, .punct ')', .punct '.',
      .word "unwrap_or_default", .punct '(', .punct ')', .punct '.', .word "to_string",
      .punct '(', .punct ')']
  | list =>
    [.word "args", .punct '.', .word "list", .punct '(', .string name, .punct ')', .punct '.',
      .word "unwrap_or_default", .punct '(', .punct ')', .punct '.', .word "to_vec",
      .punct '(', .punct ')']

theorem closed_rustType (type : RustType) :
    Closed (": " ++ type.source ++ ",").toList (.punct ':' :: type.tokens ++ [.punct ',']) := by
  cases type with
  | bool =>
      change Closed ": bool,".toList _
      exact Closed.of_chars rfl
  | u32 =>
      change Closed ": u32,".toList _
      exact Closed.of_chars rfl
  | i64 =>
      change Closed ": i64,".toList _
      exact Closed.of_chars rfl
  | string =>
      change Closed ": String,".toList _
      exact Closed.of_chars rfl
  | strings =>
      change Closed ": Vec<String>,".toList _
      exact Closed.of_chars rfl

theorem closed_accessor (a : Accessor) (name : String) :
    Closed (a.source name).toList (a.tokens name) := by
  cases a with
  | flag =>
      have hfront : Closed "args.flag(".toList
          [.word "args", .punct '.', .word "flag", .punct '('] := Closed.of_chars rfl
      have hback : Closed ")".toList
          [.punct ')'] := Closed.of_chars rfl
      exact closed_quotedLine hfront name hback
  | count =>
      have hfront : Closed "args.count(".toList
          [.word "args", .punct '.', .word "count", .punct '('] := Closed.of_chars rfl
      have hback : Closed ")".toList
          [.punct ')'] := Closed.of_chars rfl
      exact closed_quotedLine hfront name hback
  | int =>
      have hfront : Closed "args.int(".toList
          [.word "args", .punct '.', .word "int", .punct '('] := Closed.of_chars rfl
      have hback : Closed ").unwrap_or_default()".toList
          [.punct ')', .punct '.', .word "unwrap_or_default", .punct '(', .punct ')'] := Closed.of_chars rfl
      exact closed_quotedLine hfront name hback
  | str =>
      have hfront : Closed "args.string(".toList
          [.word "args", .punct '.', .word "string", .punct '('] := Closed.of_chars rfl
      have hback : Closed ").unwrap_or_default().to_string()".toList
          [.punct ')', .punct '.', .word "unwrap_or_default", .punct '(', .punct ')',
            .punct '.', .word "to_string", .punct '(', .punct ')'] := Closed.of_chars rfl
      exact closed_quotedLine hfront name hback
  | list =>
      have hfront : Closed "args.list(".toList
          [.word "args", .punct '.', .word "list", .punct '('] := Closed.of_chars rfl
      have hback : Closed ").unwrap_or_default().to_vec()".toList
          [.punct ')', .punct '.', .word "unwrap_or_default", .punct '(', .punct ')',
            .punct '.', .word "to_vec", .punct '(', .punct ')'] := Closed.of_chars rfl
      exact closed_quotedLine hfront name hback

section Lines

variable {ident : String}

theorem toList_colon_append (text : String) :
    (": " ++ text).toList = ':' :: ' ' :: text.toList := by
  rw [String.toList_append, String.toList_ofList]
  rfl

theorem closed_declarationLine (hident : IsIdent ident.toList) (type : RustType) :
    Closed ("    pub " ++ ident ++ ": " ++ type.source ++ ",").toList
      ([.word "pub", .word ident, .punct ':'] ++ type.tokens ++ [.punct ',']) := by
  have hpub : Closed "    pub ".toList [.word "pub"] := Closed.of_chars rfl
  have htype := closed_rustType type
  rw [String.append_assoc] at htype
  have hline := hident.closed_line hpub (toList_colon_append _) (by decide) htype
  simpa only [String.append_assoc, List.append_assoc, List.cons_append, List.nil_append] using hline

theorem closed_valueLine (hident : IsIdent ident.toList) (a : Accessor) (name : String) :
    Closed ("            " ++ ident ++ ": " ++ a.source name ++ ",").toList
      ([.word ident, .punct ':'] ++ a.tokens name ++ [.punct ',']) := by
  have hindent : Closed "            ".toList [] := Closed.of_chars rfl
  have hcolon : Closed ": ".toList [.punct ':'] := Closed.of_chars rfl
  have hcomma : Closed ",".toList [.punct ','] := Closed.of_chars rfl
  have hvalue : Closed (": " ++ (a.source name ++ ",")).toList
      ([.punct ':'] ++ (a.tokens name ++ [.punct ','])) := by
    rw [String.toList_append, String.toList_append]
    exact hcolon.append ((closed_accessor a name).append hcomma)
  have hline := hident.closed_line hindent (toList_colon_append _) (by decide) hvalue
  simpa only [String.append_assoc, List.append_assoc, List.cons_append, List.nil_append] using hline

/-- A comparison goes on to the end of its line. -/
theorem closed_comparisonLine {member : Member} (hident : IsIdent member.ident.toList)
    {front : String} {tokens : List Token} (hfront : Closed front.toList tokens) :
    Closed ((front ++ Module.comparison member).toList ++ ['\n'])
      (tokens ++ [.word "self", .punct '.', .word member.ident, .punct '=', .punct '=',
        .word "other", .punct '.', .word member.ident]) := by
  have hself : Closed "self.".toList [.word "self", .punct '.'] := Closed.of_chars rfl
  have hother : Closed " == other.".toList
      [.punct '=', .punct '=', .word "other", .punct '.'] := Closed.of_chars rfl
  have hbreak : Closed "\n".toList [] := Closed.of_chars rfl
  have hnewline : "\n".toList = ['\n'] := String.toList_ofList
  have hright := hident.closed_line hother hnewline (by decide) hbreak
  have hspace : (" == other." ++ member.ident ++ "\n").toList =
      ' ' :: ("== other." ++ member.ident ++ "\n").toList := by
    have hequals : " == other.".toList = ' ' :: "== other.".toList := rfl
    simp only [String.toList_append, hequals, List.cons_append]
  have hline := hfront.append (hident.closed_line hself hspace (by decide) hright)
  simpa only [Module.comparison, String.toList_append, hnewline, List.append_assoc,
    List.cons_append, List.nil_append] using hline

/-! ## Formats -/

/-- The tokens of a statement that writes a text, with the tokens of what stands behind it. -/
def writeTokens (text : String) (more : List Token) : List Token :=
  [.word "write", .punct '!', .punct '(', .word "f", .punct ',', .string text] ++ more ++
    [.punct ')', .punct '?', .punct ';']

theorem closed_write {cs back : List Char} (tokens : List Token)
    (h : ∀ c ∈ cs, c ∉ ['"', '\\', '\r'])
    (hback : Closed back (tokens ++ [.punct ')', .punct '?', .punct ';'])) :
    Closed ("        write!(f, ".toList ++ ('"' :: (cs ++ ['"']) ++ back))
      (writeTokens (String.ofList cs) tokens) := by
  have hopen : Closed "        write!(f, ".toList
      [.word "write", .punct '!', .punct '(', .word "f", .punct ','] := Closed.of_chars rfl
  have hline := hopen.append ((closed_string h).append hback)
  simpa only [writeTokens, List.append_assoc, List.cons_append, List.nil_append] using hline

theorem closed_openLine {name : String} (h : IsWord name.toList) :
    Closed ("        write!(f, \"<" ++ name ++ "\")?;").toList (writeTokens ("<" ++ name) []) := by
  have hplain : ∀ c ∈ '<' :: name.toList, c ∉ ['"', '\\', '\r'] := by
    intro c hc
    rcases List.mem_cons.mp hc with rfl | hc
    · decide
    · exact not_mem_of_isWordPart (h.parts c hc)
  have hend : Closed ")?;".toList [.punct ')', .punct '?', .punct ';'] := Closed.of_chars rfl
  have hline := closed_write [] hplain hend
  have htext : String.ofList ('<' :: name.toList) = "<" ++ name := by
    apply String.toList_inj.mp
    simp
  have hopen : "        write!(f, \"<" = "        write!(f, " ++ "\"<" := rfl
  have hmark : "\"<".toList = ['"', '<'] := String.toList_ofList
  have hclose : "\")?;" = "\"" ++ ")?;" := rfl
  have hquote : "\"".toList = ['"'] := String.toList_ofList
  rw [htext] at hline
  rw [hopen, hclose]
  simp only [String.toList_append, List.append_assoc, hmark, hquote, List.cons_append,
    List.nil_append] at hline ⊢
  exact hline

theorem not_mem_of_mem_show (sort : Show) : ∀ c ∈ sort.source.toList, c ∉ ['"', '\\', '\r'] := by
  have hplain : Show.source .plain = String.ofList ['\x7b', '\x7d'] := rfl
  have hquoted : Show.source .quoted = String.ofList ['\x7b', ':', '?', '\x7d'] := rfl
  cases sort with
  | plain => simp [hplain]
  | quoted => simp [hquoted]

theorem closed_showLine {member : Member} (h : member.Readable) :
    Closed ("        write!(f, \" " ++ member.field.name ++ "=" ++
        (showing member.field.kind).source ++ "\", self." ++ member.ident ++ ")?;").toList
      (writeTokens (" " ++ member.field.name ++ "=" ++ (showing member.field.kind).source)
        [.punct ',', .word "self", .punct '.', .word member.ident]) := by
  have hplain : ∀ c ∈ ' ' :: (member.field.name.toList ++
      '=' :: (showing member.field.kind).source.toList), c ∉ ['"', '\\', '\r'] := by
    intro c hc
    rcases List.mem_cons.mp hc with rfl | hc
    · decide
    · rcases List.mem_append.mp hc with hc | hc
      · exact not_mem_of_isWordPart ((isWord_fieldName h.name).parts c hc)
      · rcases List.mem_cons.mp hc with rfl | hc
        · decide
        · exact not_mem_of_mem_show _ c hc
  have hself : Closed ", self.".toList [.punct ',', .word "self", .punct '.'] :=
    Closed.of_chars rfl
  have hend : Closed ")?;".toList [.punct ')', .punct '?', .punct ';'] := Closed.of_chars rfl
  have hclose : ")?;".toList = [')', '?', ';'] := String.toList_ofList
  have hmember := h.ident.closed_line hself hclose (by decide) hend
  have hline := closed_write [.punct ',', .word "self", .punct '.', .word member.ident]
    hplain hmember
  have htext : String.ofList (' ' :: (member.field.name.toList ++
      '=' :: (showing member.field.kind).source.toList)) =
        " " ++ member.field.name ++ "=" ++ (showing member.field.kind).source := by
    apply String.toList_inj.mp
    simp
  have hopen : "        write!(f, \" " = "        write!(f, " ++ "\" " := rfl
  have hquotes : "\" ".toList = ['"', ' '] := String.toList_ofList
  have hsign : "=".toList = ['='] := String.toList_ofList
  have hrest : "\", self." = "\"" ++ ", self." := rfl
  have hquote : "\"".toList = ['"'] := String.toList_ofList
  rw [htext] at hline
  rw [hopen, hrest]
  simp only [String.toList_append, List.append_assoc, hquotes, hsign, hquote,
    List.cons_append, List.nil_append] at hline ⊢
  exact hline

end Lines

end CommandSchema.Generated
