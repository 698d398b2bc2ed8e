import CommandSchema.Proofs.Generated.Freshness

/-!
# Comments of generated structs

A description becomes the comment of the struct or of one of its fields, a line of comment for
each line of its text.  No line feed comes into the comment with it, so nothing of a description is
read as an item or a field.  A carriage return at the end of a line drops out; one that
stands inside a line is kept, although Rust allows none in such a comment.
-/

namespace CommandSchema.Generated

open Rust

/-! ## Lines of a comment -/

/-- The line of a comment for a line of a description.  The blanks at the end of the line are left
out. -/
inductive DocLine (indent : String) (line : List Char) : String → Prop
  | blank (blanks : ∀ c ∈ line, Text.isBlank c = true) : DocLine indent line (indent ++ "///")
  | text {front blanks : List Char} {last : Char} (shape : line = front ++ last :: blanks)
      (dark : Text.isBlank last = false) (blanks : ∀ c ∈ blanks, Text.isBlank c = true) :
      DocLine indent line (indent ++ "/// " ++ String.ofList (front ++ [last]))

/-- A character stands in a line, and something that is not blank stands behind it. -/
def StandsInside (c : Char) (line : List Char) : Prop :=
  ∃ front back, line = front ++ c :: back ∧ ∃ d ∈ back, Text.isBlank d = false

/-- A description is written as a comment: line by line, or not at all if there is none. -/
def Documents (indent : String) (description : Option String) (docs : List String) : Prop :=
  List.Forall₂ (DocLine indent) ((description.map fun text => Text.lines text.toList).getD []) docs

theorem documents_docComment (indent : String) (description : Option String) :
    Documents indent description (docComment? indent description) := by
  cases description with
  | none => exact .nil
  | some text =>
      refine List.forall₂_map_right_iff.mpr (List.forall₂_same.mpr fun line _ => ?_)
      split_ifs with hempty
      · exact .blank ((Text.trim_eq_nil_iff line).mp (List.isEmpty_iff.mp hempty))
      · have hdark : ∃ c ∈ line, Text.isBlank c = false := by
          by_contra hnone
          refine hempty (List.isEmpty_iff.mpr ((Text.trim_eq_nil_iff line).mpr fun c hc => ?_))
          by_contra hblank
          exact hnone ⟨c, hc, Bool.not_eq_true _ ▸ hblank⟩
        obtain ⟨front, last, blanks, hshape, hlast, hblanks, htrim⟩ := Text.exists_trimEnd_eq hdark
        rw [htrim]
        exact .text hshape hlast hblanks

example : docComment? "" (some "a\r\n \t\r\n\n b ") = ["/// a", "///", "///", "///  b"] := by decide

/-- A blank is left in front of the last character that is not blank, and nowhere else. -/
theorem mem_iff_standsInside {c last : Char} {front blanks : List Char}
    (hc : Text.isBlank c = true) (hlast : Text.isBlank last = false)
    (hblanks : ∀ d ∈ blanks, Text.isBlank d = true) :
    c ∈ front ++ [last] ↔ StandsInside c (front ++ last :: blanks) := by
  have hne : c ≠ last := by
    rintro rfl
    rw [hc] at hlast
    cases hlast
  constructor
  · intro hmem
    have hfront : c ∈ front := by simpa [hne] using hmem
    obtain ⟨before, behind, rfl⟩ := List.append_of_mem hfront
    exact ⟨before, behind ++ last :: blanks, by simp, last, by simp, hlast⟩
  · rintro ⟨before, behind, hshape, d, hd, hdark⟩
    rcases List.append_eq_append_iff.mp hshape with ⟨more, rfl, hrest⟩ | ⟨more, rfl, hrest⟩
    · -- Behind the last character that is not blank stands nothing that is not blank.
      cases more with
      | nil => exact absurd (List.cons.inj hrest).1.symm hne
      | cons e more =>
          have hmem : d ∈ blanks := by
            rw [(List.cons.inj hrest).2]
            exact List.mem_append_right _ (List.mem_cons_of_mem _ hd)
          rw [hblanks d hmem] at hdark
          cases hdark
    · cases more with
      | nil => exact absurd (List.cons.inj hrest).1 hne
      | cons e more =>
          obtain ⟨rfl, -⟩ := List.cons.inj hrest
          simp

theorem DocLine.mem_iff {indent doc : String} {line : List Char} {c : Char}
    (h : DocLine indent line doc) (hc : Text.isBlank c = true) (hspace : c ≠ ' ')
    (hindent : c ∉ indent.toList) : c ∈ doc.toList ↔ StandsInside c line := by
  have hslash : c ≠ '/' := by
    rintro rfl
    exact absurd hc (by decide)
  have hslashes : "///".toList = ['/', '/', '/'] := String.toList_ofList
  have hspaced : "/// ".toList = ['/', '/', '/', ' '] := String.toList_ofList
  cases h with
  | blank blanks =>
      refine iff_of_false (by simp [hslashes, hindent, hslash]) ?_
      rintro ⟨front, back, rfl, d, hd, hdark⟩
      rw [blanks d (List.mem_append_right _ (List.mem_cons_of_mem _ hd))] at hdark
      cases hdark
  | text shape dark blanks =>
      rw [shape, ← mem_iff_standsInside hc dark blanks]
      simp [hspaced, hindent, hslash, hspace]

/-- A character comes into a comment from inside a line of the description. -/
theorem Documents.exists_mem_iff {indent : String} {description : Option String}
    {docs : List String} {c : Char} (h : Documents indent description docs)
    (hc : Text.isBlank c = true) (hspace : c ≠ ' ') (hindent : c ∉ indent.toList) :
    (∃ doc ∈ docs, c ∈ doc.toList) ↔
      ∃ text ∈ description, ∃ line ∈ Text.lines text.toList, StandsInside c line := by
  have hlines : ∀ {lines : List (List Char)} {docs : List String},
      List.Forall₂ (DocLine indent) lines docs →
      ((∃ doc ∈ docs, c ∈ doc.toList) ↔ ∃ line ∈ lines, StandsInside c line) := by
    intro lines docs hdocs
    induction hdocs with
    | nil => simp
    | cons hdoc hdocs ih => simp [hdoc.mem_iff hc hspace hindent, ih]
  rw [hlines h]
  cases description <;> simp

/-! ## The struct -/

/-- The lines of a struct for one field: its comment, and right below it the field itself. -/
inductive FieldLines (f : Field) : List String → Prop
  | mk {docs : List String} {ident : String} (comment : Documents "    " f.description docs)
      (named : fieldIdent? f.name = some ident) :
      FieldLines f (docs ++ ["    pub " ++ ident ++ ": " ++ (rustType f.kind).source ++ ","])

/-- The lines of the struct for a schema: its comment, its head, the lines of each field in the
order of the names, and its end. -/
inductive StructLines (s : Schema) (structName : String) : List String → Prop
  | mk {docs : List String} {fields : List Field} {blocks : List (List String)}
      (comment : Documents "" s.description docs) (perm : fields.Perm s.fields)
      (sorted : (fields.map Field.name).Pairwise (· < ·))
      (members : List.Forall₂ FieldLines fields blocks) :
      StructLines s structName (docs ++ ["#[derive(Debug, Clone)]",
        "pub struct " ++ structName ++ " \x7b"] ++ blocks.flatten ++ ["\x7d"])

/-- The descriptions in a schema, its own and those of its fields. -/
def descriptions (s : Schema) : List String :=
  s.description.toList ++ s.fields.filterMap Field.description

theorem exists_mem_descriptions {s : Schema} {p : String → Prop} :
    (∃ text ∈ descriptions s, p text) ↔
      (∃ text ∈ s.description, p text) ∨ ∃ f ∈ s.fields, ∃ text ∈ f.description, p text := by
  simp only [descriptions, List.mem_append, Option.mem_toList, List.mem_filterMap, or_and_right,
    exists_or]
  refine or_congr_right ⟨?_, ?_⟩
  · rintro ⟨text, ⟨f, hf, htext⟩, h⟩
    exact ⟨f, hf, text, htext, h⟩
  · rintro ⟨f, hf, text, htext, h⟩
    exact ⟨text, ⟨f, hf, htext⟩, h⟩

section Breaks

variable {c : Char} (hc : c = '\n' ∨ c = '\r')

include hc

theorem not_mem_of_isIdent {cs : List Char} (h : IsIdent cs) : c ∉ cs := by
  have hpart : isWordPart c = false := by rcases hc with rfl | rfl <;> decide
  have hraw : c ∉ ['r', '#'] := by rcases hc with rfl | rfl <;> decide
  have hword : ∀ {cs : List Char}, IsWord cs → c ∉ cs := by
    intro cs h hmem
    rw [h.parts c hmem] at hpart
    cases hpart
  cases h with
  | plain h => exact hword h
  | raw h => exact fun hmem => (List.mem_append.mp hmem).elim hraw (hword h)

theorem not_mem_declaration {ident : String} (h : IsIdent ident.toList) (type : RustType) :
    c ∉ ("    pub " ++ ident ++ ": " ++ type.source ++ ",").toList := by
  have hfixed : c ∉ "    pub ".toList ∧ c ∉ ": ".toList ∧ c ∉ ",".toList := by
    rcases hc with rfl | rfl <;> decide
  have htype : c ∉ type.source.toList := by rcases hc with rfl | rfl <;> cases type <;> decide
  obtain ⟨hpub, hcolon, hcomma⟩ := hfixed
  simp only [String.toList_append, List.mem_append, not_or]
  exact ⟨⟨⟨⟨hpub, not_mem_of_isIdent hc h⟩, hcolon⟩, htype⟩, hcomma⟩

/-- A character that ends lines comes into the lines of a field from the description. -/
theorem FieldLines.exists_mem_iff {f : Field} {lines : List String} (h : FieldLines f lines)
    (hname : isFieldName f.name = true) :
    (∃ line ∈ lines, c ∈ line.toList) ↔
      ∃ text ∈ f.description, ∃ line ∈ Text.lines text.toList, StandsInside c line := by
  have hbreak : Text.isBlank c = true ∧ c ≠ ' ' ∧ c ∉ "    ".toList := by
    rcases hc with rfl | rfl <;> decide
  obtain ⟨hblank, hspace, hindent⟩ := hbreak
  cases h with
  | mk comment named =>
      have hdeclaration := not_mem_declaration hc (isIdent_fieldIdent hname named) (rustType f.kind)
      rw [← comment.exists_mem_iff hblank hspace hindent]
      simp only [List.mem_append, List.mem_singleton, or_and_right, exists_or, exists_eq_left,
        hdeclaration, or_false]

theorem exists_mem_flatten_iff {fields : List Field} {blocks : List (List String)}
    (h : List.Forall₂ FieldLines fields blocks) (hnames : ∀ f ∈ fields, isFieldName f.name = true) :
    (∃ line ∈ blocks.flatten, c ∈ line.toList) ↔ ∃ f ∈ fields, ∃ text ∈ f.description,
      ∃ line ∈ Text.lines text.toList, StandsInside c line := by
  induction h with
  | nil => simp
  | cons member members ih =>
      rw [List.forall_mem_cons] at hnames
      simp only [List.flatten_cons, List.mem_append, or_and_right, exists_or, ih hnames.2,
        member.exists_mem_iff hc hnames.1, List.mem_cons, exists_eq_left]

/-- A character that ends lines comes into the lines of a struct from a description. -/
theorem StructLines.exists_mem_iff {s : Schema} {structName : String} {lines : List String}
    (h : StructLines s structName lines) (hname : IsWord structName.toList) :
    (∃ line ∈ lines, c ∈ line.toList) ↔
      ∃ text ∈ descriptions s, ∃ line ∈ Text.lines text.toList, StandsInside c line := by
  have hbreak : Text.isBlank c = true ∧ c ≠ ' ' ∧ c ∉ "".toList := by
    rcases hc with rfl | rfl <;> decide
  have hfixed : c ∉ "#[derive(Debug, Clone)]".toList ∧ c ∉ "pub struct ".toList ∧
      c ∉ " \x7b".toList ∧ c ∉ "\x7d".toList := by
    rcases hc with rfl | rfl <;> decide
  obtain ⟨hblank, hspace, hindent⟩ := hbreak
  obtain ⟨hderive, hhead, hopen, hclose⟩ := hfixed
  have hstruct : c ∉ ("pub struct " ++ structName ++ " \x7b").toList := by
    have hword := not_mem_of_isIdent hc (.plain hname)
    simp only [String.toList_append, List.mem_append, not_or]
    exact ⟨⟨hhead, hword⟩, hopen⟩
  cases h with
  | @mk docs fields blocks comment perm sorted members =>
      have hnames : ∀ f ∈ fields, isFieldName f.name = true :=
        fun f hf => (s.wellFormed (perm.mem_iff.mp hf)).name
      have hdocs := comment.exists_mem_iff hblank hspace hindent
      have hblocks := exists_mem_flatten_iff hc members hnames
      simp only [List.mem_append, List.mem_cons, List.not_mem_nil, or_false, or_and_right,
        exists_or, exists_eq_left, hderive, hstruct, hclose, hdocs, hblocks, perm.mem_iff,
        exists_mem_descriptions]

end Breaks

/-- No line of a struct goes on in another one, whatever the descriptions are. -/
theorem StructLines.isLine {s : Schema} {structName : String} {lines : List String}
    (h : StructLines s structName lines) (hname : IsWord structName.toList) :
    ∀ line ∈ lines, Text.IsLine line := by
  intro line hline hmem
  obtain ⟨text, -, piece, hpiece, front, back, rfl, -⟩ :=
    (h.exists_mem_iff (Or.inl rfl) hname).mp ⟨line, hline, hmem⟩
  exact Text.newline_not_mem_lines hpiece (by simp)

theorem fieldLines_memberLines {member : Member}
    (h : fieldIdent? member.field.name = some member.ident) :
    FieldLines member.field (Module.memberLines member) :=
  .mk (documents_docComment _ _) h

/-- The struct of a module is written in the lines of a struct and an empty line. -/
theorem Module.exists_structLines {m : Module} {s : Schema} {structName : String}
    (h : Module.of s structName = .ok m) :
    ∃ lines, m.structLines = lines ++ [""] ∧ StructLines s structName lines := by
  obtain ⟨rfl, -⟩ := Module.of_eq_ok h
  obtain ⟨rfl, hcovers⟩ := Module.covers_of_eq_ok h
  have hmembers : List.Forall₂ FieldLines (m.sorted.map Member.field)
      (m.sorted.map Module.memberLines) := by
    refine List.forall₂_map_left_iff.mpr (List.forall₂_map_right_iff.mpr
      (List.forall₂_same.mpr fun member hmember => ?_))
    exact fieldLines_memberLines (hcovers.idents member (List.mem_mergeSort.mp hmember))
  have hsorted : ((m.sorted.map Member.field).map Field.name).Pairwise (· < ·) := by
    rw [List.map_map]
    exact hcovers.pairwise_sorted
  refine ⟨_, ?_, .mk (documents_docComment "" m.schema.description) hcovers.perm_sorted hsorted
    hmembers⟩
  simp [Module.structLines, List.flatMap]

/-- What stands for the descriptions of a schema in a generated module. -/
structure Documented (s : Schema) (structName text : String) (m : Module) (lines : List String) :
    Prop where
  made : Module.of s structName = .ok m
  /-- The struct has its lines to itself, between the schema and the constructors. -/
  text_eq : text = unlines (m.headerLines ++ m.schemaLines) ++ unlines lines ++ "\n" ++
    unlines (m.constructorLines ++ m.equalityLines ++ m.displayLines)
  /-- The lines are what the struct is cut into at line feeds. -/
  pieces : (unlines lines).toList.splitOn '\n' = lines.map String.toList ++ [[]]
  shape : StructLines s structName lines
  /-- Carriage returns come from inside the lines of the descriptions. -/
  returns_iff : (∃ line ∈ lines, '\r' ∈ line.toList) ↔
    ∃ text ∈ descriptions s, ∃ line ∈ Text.lines text.toList, StandsInside '\r' line

/-- Descriptions stay in their comments.  Unless a name is refused, a module is written, and the
struct in it consists of lines of comment, one for each line of a description and right
above what is described, of its head, one line for each field, and its end.  A carriage return
is among them exactly if it stands inside a line of a description. -/
theorem emitAs_documented (s : Schema) (structName : String) :
    (∃ e, emitAs s structName = .error e ∧
      ((isStructName structName = false ∧ e = ⟨structName⟩) ∨
        ∃ f ∈ s.fields, f.name ∈ reservedWords ∧ e = ⟨f.name⟩)) ∨
    ∃ text m lines, emitAs s structName = .ok text ∧ Documented s structName text m lines := by
  unfold emitAs
  cases hm : Module.of s structName with
  | error e => exact Or.inl ⟨e, rfl, Module.of_eq_error hm⟩
  | ok m =>
      obtain ⟨lines, hlines, hshape⟩ := Module.exists_structLines hm
      obtain ⟨-, hreadable⟩ := Module.of_eq_ok hm
      obtain ⟨rfl, -⟩ := Module.covers_of_eq_ok hm
      have hempty : unlines [""] = "\n" := rfl
      have hsource : m.source = unlines (m.headerLines ++ m.schemaLines) ++ unlines lines ++ "\n" ++
          unlines (m.constructorLines ++ m.equalityLines ++ m.displayLines) := by
        rw [← hempty, ← unlines_append, ← unlines_append, ← unlines_append,
          List.append_assoc _ lines, ← hlines, Module.source, unlines]
        simp only [List.append_assoc]
      exact Or.inr ⟨m.source, m, lines, rfl,
        { made := hm
          text_eq := hsource
          pieces := Text.splitOn_join_lines (hshape.isLine hreadable.structName)
          shape := hshape
          returns_iff := hshape.exists_mem_iff (Or.inr rfl) hreadable.structName }⟩

/-- A line that is written is a line of the text. -/
theorem mem_splitOn_unlines {line : String} {lines : List String} (hmem : line ∈ lines)
    (h : Text.IsLine line) : line.toList ∈ (unlines lines).toList.splitOn '\n' := by
  induction lines with
  | nil => exact absurd hmem List.not_mem_nil
  | cons first lines ih =>
      rw [toList_unlines_cons, List.append_assoc, List.singleton_append,
        List.splitOn_append_cons_self, List.mem_append]
      rcases List.mem_cons.mp hmem with rfl | hmem
      · rw [List.splitOn_eq_singleton h]
        exact Or.inl (List.mem_singleton.mpr rfl)
      · exact Or.inr (ih hmem)

/-- A carriage return inside a description comes into the comment of the struct. -/
theorem emitAs_documented_return : ∃ s text, Schema.build "t" (some "a\rb") [] = .ok s ∧
    emitAs s "T" = .ok text ∧ "/// a\rb".toList ∈ text.toList.splitOn '\n' ∧
    '\r' ∈ "/// a\rb".toList := by
  let s : Schema := ⟨"t", some "a\rb", [], by decide, by decide⟩
  let m : Module := ⟨s, "T", []⟩
  have hdoc : docComment? "" m.schema.description = ["/// a\rb"] := by decide
  have hmem : "/// a\rb" ∈ m.headerLines ++ m.schemaLines ++ m.structLines ++ m.constructorLines ++
      m.equalityLines ++ m.displayLines := by
    have hstruct : "/// a\rb" ∈ m.structLines := by simp [Module.structLines, hdoc]
    simp only [List.mem_append, hstruct, true_or, or_true]
  exact ⟨s, m.source, s.build_self, rfl, mem_splitOn_unlines hmem (by decide), by decide⟩

end CommandSchema.Generated
