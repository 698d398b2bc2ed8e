import CommandSchema.Proofs.Generated.Line
import CommandSchema.Proofs.Rust.Mention

/-!
# Items of generated modules

The struct, its constructors, equality and display.  They mention one name of the
library of schemas, the type of the schema, whatever the schema is and whatever its
fields are called.
-/

namespace CommandSchema.Generated

open Rust

/-- The names that the library of schemas exports. -/
def libraryNames : List String :=
  ["FieldId", "FieldKind", "FieldSchema", "Schema", "SchemaBuilder", "SchemaError", "Value",
    "ValueType", "validate_fields"]

/-- A text that mentions nothing of the library. -/
abbrev Quiet (text : List Char) : Prop :=
  Silent libraryNames text

/-! ## Lines -/

theorem quiet_docComment {indent : String} (hindent : Closed indent.toList [])
    (text : Option String) : Quiet (unlines (docComment? indent text)).toList :=
  silent_of_closed_nil (closed_docComment hindent text)

section Lines

variable {ident : String}

/-- A line that names the type of an item. -/
theorem quiet_itemLine (hident : IsIdent ident.toList) {front back word : String}
    {more : List Char}
    (hfront : ∀ found, Counts libraryNames front.toList (.idle found) ⟨true, some word, found⟩)
    (hword : libraryNames.contains word = false) (hback : back.toList = ' ' :: more)
    (hquiet : Quiet back.toList) : Quiet (front ++ ident ++ back).toList := by
  intro found
  have hsettle : Census.settle libraryNames ⟨true, some word, found⟩ = found := by
    simp only [Census.settle, hword, Bool.false_eq_true, if_false]
  rw [String.toList_append, String.toList_append, List.append_assoc]
  exact (hfront found).trans (hident.counts_owned hback (by decide) rfl hsettle hquiet)

theorem quiet_declarationLine (hident : IsIdent ident.toList) (type : RustType) :
    Quiet ("    pub " ++ ident ++ ": " ++ type.source ++ ",").toList := by
  intro found
  refine ⟨_, closed_declarationLine hident type, ?_⟩
  cases type <;> rfl

theorem quiet_valueLine (hident : IsIdent ident.toList) (a : Accessor) (name : String) :
    Quiet ("            " ++ ident ++ ": " ++ a.source name ++ ",").toList := by
  intro found
  refine ⟨_, closed_valueLine hident a name, ?_⟩
  cases a <;> rfl

theorem quiet_comparisonLine {member : Member} (hident : IsIdent member.ident.toList)
    {front : String} {tokens : List Token} (hfront : Closed front.toList tokens)
    (hquiet : ∀ found, tokens.foldlM (fun s token => some (Census.step libraryNames s token))
      (Census.idle found) = some (Census.idle found)) :
    Quiet ((front ++ Module.comparison member).toList ++ ['\n']) := by
  intro found
  refine ⟨_, closed_comparisonLine hident hfront, ?_⟩
  rw [List.foldlM_append, hquiet found]
  rfl

theorem quiet_openLine {name : String} (h : IsWord name.toList) :
    Quiet ("        write!(f, \"<" ++ name ++ "\")?;").toList :=
  fun _ => ⟨_, closed_openLine h, rfl⟩

theorem quiet_showLine {member : Member} (h : member.Readable) :
    Quiet ("        write!(f, \" " ++ member.field.name ++ "=" ++
      (showing member.field.kind).source ++ "\", self." ++ member.ident ++ ")?;").toList :=
  fun _ => ⟨_, closed_showLine h, rfl⟩

end Lines

/-! ## Whole items -/

/-- A module with a struct name and members that can be read back. -/
structure Module.Readable (m : Module) : Prop where
  structName : IsWord m.structName.toList
  members : ∀ member ∈ m.declared, member.Readable

namespace Module

variable {m : Module}

theorem Readable.sorted (h : m.Readable) : ∀ member ∈ m.sorted, member.Readable :=
  fun member hmember => h.members member (List.mem_mergeSort.mp hmember)

theorem quiet_structLines (h : m.Readable) : Quiet (unlines m.structLines).toList := by
  have hderive : Quiet "#[derive(Debug, Clone)]".toList := silent_of_chars rfl fun _ => rfl
  have hbrace : " \x7b".toList = [' ', '\x7b'] := String.toList_ofList
  have hopen : Quiet ("pub struct " ++ m.structName ++ " \x7b").toList :=
    quiet_itemLine (.plain h.structName) (fun _ => Leads.of_chars ⟨_, rfl, rfl⟩) (by decide) hbrace
      (silent_of_chars rfl fun _ => rfl)
  have hmember : ∀ member ∈ m.sorted, Quiet (unlines (memberLines member)).toList := by
    intro member hmember
    have hindent : Closed "    ".toList [] := Closed.of_chars rfl
    have hdoc := quiet_docComment hindent member.field.description
    have hline := quiet_declarationLine (h.sorted member hmember).ident
      (rustType member.field.kind)
    exact hdoc.unlines_append (hline.newline.unlines_cons silent_unlines_nil)
  have hmembers := Silent.unlines_flatMap hmember
  have hclose : Quiet "\x7d".toList := silent_of_chars rfl fun _ => rfl
  have hempty : Quiet "".toList := silent_of_chars rfl fun _ => rfl
  have hindent : Closed "".toList [] := Closed.of_chars rfl
  have hdoc := quiet_docComment hindent m.schema.description
  exact ((hdoc.unlines_append (hderive.newline.unlines_cons
    (hopen.newline.unlines_cons silent_unlines_nil))).unlines_append hmembers).unlines_append
      (hclose.newline.unlines_cons (hempty.newline.unlines_cons silent_unlines_nil))

theorem quiet_parseLines (h : m.Readable) : Quiet (unlines m.parseLines).toList := by
  unfold parseLines
  split
  · have hparse : Quiet "        argbind_parser::parse(tokens, Self::schema())?;".toList :=
      silent_of_chars rfl fun _ => rfl
    have hok : Quiet "        Ok(Self \x7b\x7d)".toList := silent_of_chars rfl fun _ => rfl
    exact hparse.newline.unlines_cons (hok.newline.unlines_cons silent_unlines_nil)
  · have hparse : Quiet "        let args = argbind_parser::parse(tokens, Self::schema())?;".toList :=
      silent_of_chars rfl fun _ => rfl
    have hok : Quiet "        Ok(Self \x7b".toList := silent_of_chars rfl fun _ => rfl
    have hclose : Quiet "        \x7d)".toList := silent_of_chars rfl fun _ => rfl
    have hvalues : Quiet (unlines (m.sorted.map fun member =>
        "            " ++ member.ident ++ ": " ++
          (accessor member.field.kind).source member.field.name ++ ",")).toList := by
      refine Silent.unlines_of_forall fun line hline => ?_
      obtain ⟨member, hmember, rfl⟩ := List.mem_map.mp hline
      exact (quiet_valueLine (h.sorted member hmember).ident _ _).newline
    exact ((hparse.newline.unlines_cons (hok.newline.unlines_cons
      silent_unlines_nil)).unlines_append hvalues).unlines_append
        (hclose.newline.unlines_cons silent_unlines_nil)

/-- The access to the schema has the type of the schema, the one name of the library. -/
theorem counts_accessLines (found : List String) :
    Counts libraryNames (unlines ["    /// Schema the struct is parsed against.",
      "    pub fn schema() -> &'static Schema \x7b", "        &SCHEMA", "    \x7d", ""]).toList
      (.idle found) (.idle ("Schema" :: found)) := by
  have hdoc : Quiet ("    /// Schema the struct is parsed against.".toList ++ ['\n']) := by
    rw [String.toList_ofList]
    exact silent_of_closed_nil rfl
  have hschema : Counts libraryNames "    pub fn schema() -> &'static Schema \x7b".toList
      (.idle found) (.idle ("Schema" :: found)) := Leads.of_chars ⟨_, rfl, rfl⟩
  have hstatic : Counts libraryNames ("        &SCHEMA".toList ++ ['\n'])
      (.idle ("Schema" :: found)) ⟨false, some "SCHEMA", "Schema" :: found⟩ := by
    rw [String.toList_ofList]
    exact ⟨_, rfl, rfl⟩
  have hend : Counts libraryNames "    \x7d".toList ⟨false, some "SCHEMA", "Schema" :: found⟩
      (.idle ("Schema" :: found)) := Leads.of_chars ⟨_, rfl, rfl⟩
  have hempty : Quiet "".toList := silent_of_chars rfl fun _ => rfl
  exact (hdoc found).unlines_cons (hschema.newline.unlines_cons (hstatic.unlines_cons
    (hend.newline.unlines_cons ((hempty.newline _).unlines_cons Leads.unlines_nil))))

theorem quiet_signatureLines : Quiet (unlines [
    "    /// Parses command line tokens, excluding the program name.",
    "    pub fn parse_args<S: AsRef<str>>(tokens: &[S]) -> Result<Self, ArgError> \x7b"]).toList := by
  have hdoc : Quiet ("    /// Parses command line tokens, excluding the program name.".toList ++
      ['\n']) := by
    rw [String.toList_ofList]
    exact silent_of_closed_nil rfl
  have harguments : Quiet "    pub fn parse_args<S: AsRef<str>>(tokens: &[S])".toList :=
    silent_of_chars rfl fun _ => rfl
  have hresult : Quiet " -> Result<Self, ArgError> \x7b".toList :=
    silent_of_chars rfl fun _ => rfl
  have hsplit : "    pub fn parse_args<S: AsRef<str>>(tokens: &[S]) -> Result<Self, ArgError> \x7b" =
      "    pub fn parse_args<S: AsRef<str>>(tokens: &[S])" ++ " -> Result<Self, ArgError> \x7b" :=
    rfl
  refine hdoc.unlines_cons (Silent.unlines_cons ?_ silent_unlines_nil)
  rw [hsplit, String.toList_append]
  exact (harguments.append hresult).newline

theorem counts_constructorLines (h : m.Readable) (found : List String) :
    Counts libraryNames (unlines m.constructorLines).toList (.idle found)
      (.idle ("Schema" :: found)) := by
  have hbrace : " \x7b".toList = [' ', '\x7b'] := String.toList_ofList
  have himpl : Quiet ("impl " ++ m.structName ++ " \x7b").toList :=
    quiet_itemLine (.plain h.structName) (fun _ => Leads.of_chars ⟨_, rfl, rfl⟩) (by decide) hbrace
      (silent_of_chars rfl fun _ => rfl)
  have hempty : Quiet "".toList := silent_of_chars rfl fun _ => rfl
  have hindented : Quiet "    \x7d".toList := silent_of_chars rfl fun _ => rfl
  have hclose : Quiet "\x7d".toList := silent_of_chars rfl fun _ => rfl
  have hhead := (himpl.newline found).unlines_cons
    ((counts_accessLines found).unlines_append (quiet_signatureLines _))
  have htail := hindented.newline.unlines_cons (hclose.newline.unlines_cons
    (hempty.newline.unlines_cons silent_unlines_nil))
  exact (hhead.unlines_append (quiet_parseLines h _)).unlines_append (htail _)

/-- The comparison ends with a brace; without members it is a word, which the brace ends. -/
theorem exists_counts_comparisonLines (h : m.Readable) (found : List String) :
    ∃ s, Counts libraryNames (unlines m.comparisonLines).toList (.idle found) s ∧
      Counts libraryNames "    \x7d".toList s (.idle found) := by
  unfold comparisonLines
  split
  · have hsignature : Quiet "    fn eq(&self, _other: &Self) -> bool \x7b".toList :=
      silent_of_chars rfl fun _ => rfl
    have htrue : Counts libraryNames ("        true".toList ++ ['\n']) (.idle found)
        ⟨false, some "true", found⟩ := by
      rw [String.toList_ofList]
      exact ⟨_, rfl, rfl⟩
    exact ⟨_, (hsignature.newline found).unlines_cons (htrue.unlines_cons Leads.unlines_nil),
      Leads.of_chars ⟨_, rfl, rfl⟩⟩
  · rename_i first rest hsorted
    have hreadable := h.sorted
    rw [hsorted, List.forall_mem_cons] at hreadable
    have hsignature : Quiet "    fn eq(&self, other: &Self) -> bool \x7b".toList :=
      silent_of_chars rfl fun _ => rfl
    have hindent : Closed "        ".toList [] := Closed.of_chars rfl
    have hand : Closed "            && ".toList [.punct '&', .punct '&'] := Closed.of_chars rfl
    have hfirst := quiet_comparisonLine hreadable.1.ident hindent fun _ => rfl
    have hrest : Quiet (unlines (rest.map fun member =>
        "            && " ++ comparison member)).toList := by
      refine Silent.unlines_of_forall fun line hline => ?_
      obtain ⟨member, hmember, rfl⟩ := List.mem_map.mp hline
      exact quiet_comparisonLine (hreadable.2 member hmember).ident hand fun _ => rfl
    exact ⟨_, ((hsignature.newline.unlines_cons (hfirst.unlines_cons
      silent_unlines_nil)).unlines_append hrest) found, Leads.of_chars ⟨_, rfl, rfl⟩⟩

theorem quiet_equalityLines (h : m.Readable) : Quiet (unlines m.equalityLines).toList := by
  intro found
  have hbrace : " \x7b".toList = [' ', '\x7b'] := String.toList_ofList
  have hbraces : " \x7b\x7d".toList = [' ', '\x7b', '\x7d'] := String.toList_ofList
  have hpartial : Quiet ("impl PartialEq for " ++ m.structName ++ " \x7b").toList :=
    quiet_itemLine (.plain h.structName) (fun _ => Leads.of_chars ⟨_, rfl, rfl⟩) (by decide) hbrace
      (silent_of_chars rfl fun _ => rfl)
  have heq : Quiet ("impl Eq for " ++ m.structName ++ " \x7b\x7d").toList :=
    quiet_itemLine (.plain h.structName) (fun _ => Leads.of_chars ⟨_, rfl, rfl⟩) (by decide) hbraces
      (silent_of_chars rfl fun _ => rfl)
  have hclose : Quiet "\x7d".toList := silent_of_chars rfl fun _ => rfl
  have hempty : Quiet "".toList := silent_of_chars rfl fun _ => rfl
  obtain ⟨s, hcomparison, hend⟩ := exists_counts_comparisonLines h found
  have hhead := (hpartial.newline found).unlines_cons Leads.unlines_nil
  have htail := (hclose.newline found).unlines_cons ((hempty.newline found).unlines_cons
    ((heq.newline found).unlines_cons ((hempty.newline found).unlines_cons Leads.unlines_nil)))
  exact (hhead.unlines_append hcomparison).unlines_append (hend.newline.unlines_cons htail)

theorem quiet_displayLines (h : m.Readable) : Quiet (unlines m.displayLines).toList := by
  have hbrace : " \x7b".toList = [' ', '\x7b'] := String.toList_ofList
  have himpl : Quiet ("impl fmt::Display for " ++ m.structName ++ " \x7b").toList :=
    quiet_itemLine (.plain h.structName) (fun _ => Leads.of_chars ⟨_, rfl, rfl⟩) (by decide) hbrace
      (silent_of_chars rfl fun _ => rfl)
  have hsignature : Quiet
      "    fn fmt(&self, f: &mut fmt::Formatter<'_>) -> fmt::Result \x7b".toList :=
    silent_of_chars rfl fun _ => rfl
  have hname := quiet_openLine h.structName
  have hmembers : Quiet (unlines (m.declared.map fun member =>
      "        write!(f, \" " ++ member.field.name ++ "=" ++
        (showing member.field.kind).source ++ "\", self." ++ member.ident ++ ")?;")).toList := by
    refine Silent.unlines_of_forall fun line hline => ?_
    obtain ⟨member, hmember, rfl⟩ := List.mem_map.mp hline
    exact (quiet_showLine (h.members member hmember)).newline
  have hwrite : Quiet "        write!(f, \">\")".toList := silent_of_chars rfl fun _ => rfl
  have hindented : Quiet "    \x7d".toList := silent_of_chars rfl fun _ => rfl
  have hclose : Quiet "\x7d".toList := silent_of_chars rfl fun _ => rfl
  exact ((himpl.newline.unlines_cons (hsignature.newline.unlines_cons
    (hname.newline.unlines_cons silent_unlines_nil))).unlines_append hmembers).unlines_append
      (hwrite.newline.unlines_cons (hindented.newline.unlines_cons
        (hclose.newline.unlines_cons silent_unlines_nil)))

end Module

end CommandSchema.Generated
