import CommandSchema.Proofs.Fallible
import CommandSchema.Proofs.Generated.Chain
import CommandSchema.Proofs.Generated.Items

/-!
# Imports of generated modules

A generated module imports the names of the library of schemas that it mentions.  Which
of them its chain mentions depends on the fields: the constructors of fields if there is
a field, values if there is a default, and value types if a field has one.
-/

namespace CommandSchema.Generated

open Rust

/-! ## What the chain mentions -/

section Mentions

variable {x : String} (hx : x ∈ libraryNames)

include hx

theorem ne_of_mem_libraryNames :
    x ≠ "Some" ∧ x ≠ "None" ∧ x ≠ "true" ∧ x ≠ "false" ∧ x ≠ "LazyLock" := by
  have hall : ∀ x ∈ libraryNames,
      x ≠ "Some" ∧ x ≠ "None" ∧ x ≠ "true" ∧ x ≠ "false" ∧ x ≠ "LazyLock" := by decide
  exact hall x hx

theorem not_mem_mentionsAll_forms (short : Option Char) (long : Option String) :
    x ∉ Expr.mentionsAll (formExprs short long) := by
  obtain ⟨hsome, hnone, -⟩ := ne_of_mem_libraryNames hx
  cases short <;> cases long <;>
    simp [formExprs, optionExpr, Expr.mentionsAll, Expr.mentions, hsome, hnone]

omit hx in
theorem mentions_type (type : ValueType) : (typeExpr type).mentions = ["ValueType"] := by
  cases type <;> rfl

omit hx in
theorem not_mem_mentionsAll_owned (items : List String) :
    x ∉ Expr.mentionsAll (items.map ownedExpr) := by
  rw [Expr.mem_mentionsAll]
  rintro ⟨e, he, hmem⟩
  obtain ⟨item, -, rfl⟩ := List.mem_map.mp he
  simp [ownedExpr, Expr.mentions, Expr.mentionsAll] at hmem

theorem mem_mentions_value (value : Value) :
    x ∈ (valueExpr value).mentions ↔ x = "Value" := by
  obtain ⟨-, -, htrue, hfalse, -⟩ := ne_of_mem_libraryNames hx
  cases value with
  | bool b => cases b <;> simp [valueExpr, Expr.mentions, Expr.mentionsAll, htrue, hfalse]
  | list items =>
      have hitems := not_mem_mentionsAll_owned (x := x) items
      simp [valueExpr, Expr.mentions, Expr.mentionsAll, hitems]
  | _ => simp [valueExpr, ownedExpr, Expr.mentions, Expr.mentionsAll]

theorem mem_mentions_constructor (f : Field) :
    x ∈ (Constructor.ofField f).expr.mentions ↔
      x = "FieldSchema" ∨ f.kind.type?.isSome ∧ x = "ValueType" := by
  have hforms := not_mem_mentionsAll_forms hx f.short f.long
  cases hkind : f.kind <;>
    simp [Constructor.ofField, hkind, Constructor.expr, Expr.mentions, Expr.mentionsAll,
      Expr.mentionsAll_append, hforms, mentions_type, FieldKind.type?]

theorem mem_mentions_method (receiver : Expr) (m : Method) :
    x ∈ (m.expr receiver).mentions ↔
      x ∈ receiver.mentions ∨ (∃ value, m = .withDefault value) ∧ x = "Value" := by
  have hvalue := mem_mentions_value hx
  cases m <;> simp [Method.expr, Expr.mentions, Expr.mentionsAll, hvalue]

theorem mem_mentions_methods (receiver : Expr) (methods : List Method) :
    x ∈ (methods.foldl Method.expr receiver).mentions ↔
      x ∈ receiver.mentions ∨ (∃ value, .withDefault value ∈ methods) ∧ x = "Value" := by
  induction methods generalizing receiver with
  | nil => simp
  | cons m methods ih =>
      rw [List.foldl_cons, ih, mem_mentions_method hx]
      simp only [List.mem_cons, exists_or, or_and_right, or_assoc, eq_comm]

omit hx in
theorem withDefault_mem_supplyMethod (f made : Field) (value : Value) :
    .withDefault value ∈ FieldCall.supplyMethod f made ↔ f.default = some value := by
  unfold FieldCall.supplyMethod
  cases f.default with
  | some v => simp [eq_comm]
  | none =>
      simp only [reduceCtorEq, iff_false]
      split_ifs <;> simp

omit hx in
theorem withDefault_mem_methods (f : Field) (value : Value) :
    .withDefault value ∈ (FieldCall.ofField f).methods ↔ f.default = some value := by
  have hname : ∀ made : Field, .withDefault value ∉
      (if made.name = f.name then [] else [Method.withName f.name]) := by
    intro made
    split <;> simp
  have hdescription : .withDefault value ∉ (f.description.map Method.withDescription).toList := by
    simp
  change .withDefault value ∈ _ ++ FieldCall.supplyMethod f _ ++ _ ↔ _
  rw [List.mem_append, List.mem_append, withDefault_mem_supplyMethod]
  simp only [hname, hdescription, false_or, or_false]

theorem mem_mentions_field (f : Field) :
    x ∈ (FieldCall.ofField f).expr.mentions ↔
      x = "FieldSchema" ∨ f.kind.type?.isSome ∧ x = "ValueType" ∨
        f.default.isSome ∧ x = "Value" := by
  have hdefault : (∃ value, .withDefault value ∈ (FieldCall.ofField f).methods) ↔
      f.default.isSome := by
    simp only [withDefault_mem_methods, Option.isSome_iff_exists]
  rw [FieldCall.expr, mem_mentions_methods hx, hdefault, ← or_assoc]
  exact or_congr_left (mem_mentions_constructor hx f)

omit hx in
theorem mem_mentions_fields (chain : Expr) (fields : List Field) :
    x ∈ (fields.foldl fieldExpr chain).mentions ↔
      x ∈ chain.mentions ∨ ∃ f ∈ fields, x ∈ (FieldCall.ofField f).expr.mentions := by
  induction fields generalizing chain with
  | nil => simp
  | cons f fields ih =>
      rw [List.foldl_cons, ih]
      simp [fieldExpr, Expr.mentions, Expr.mentionsAll, or_assoc]

/-- The names that a chain mentions, by what the fields have. -/
theorem mem_mentions_schema (s : Schema) :
    x ∈ (schemaExpr s).mentions ↔
      x = "Schema" ∨ ∃ f ∈ s.fields, x = "FieldSchema" ∨
        f.kind.type?.isSome ∧ x = "ValueType" ∨ f.default.isSome ∧ x = "Value" := by
  obtain ⟨-, -, -, -, hlock⟩ := ne_of_mem_libraryNames hx
  have hstart : x ∈ (startExpr s).mentions ↔ x = "Schema" := by
    unfold startExpr
    split <;> simp [Expr.mentions, Expr.mentionsAll]
  have hfields := mem_mentions_fields (x := x) (startExpr s) s.fields
  simp only [hstart, mem_mentions_field hx] at hfields
  rw [← hfields]
  simp [schemaExpr, builtExpr, Expr.mentions, Expr.mentionsAll, hlock]

end Mentions

/-! ## The line of imports -/

/-- The tokens of an item that imports names from a library. -/
def useTokens (library : String) (names : List String) : List Token :=
  [.word "use", .word library, .sep, .punct '\x7b'] ++
    (names.map Token.word).intersperse (.punct ',') ++ [.punct '\x7d', .punct ';']

theorem isWord_libraryName {name : String} (h : name ∈ libraryNames) : IsWord name.toList := by
  have hall : ∀ name ∈ libraryNames, isFieldName name = true := by decide
  exact isWord_fieldName (hall name h)

theorem closed_nameList {names : List String} (h : ∀ name ∈ names, IsWord name.toList) :
    Closed (List.intercalate ", ".toList (names.map String.toList) ++ "\x7d;".toList)
      ((names.map Token.word).intersperse (.punct ',') ++ [.punct '\x7d', .punct ';']) := by
  have hend : Closed "\x7d;".toList [.punct '\x7d', .punct ';'] := Closed.of_chars rfl
  have hbrace : "\x7d;".toList = ['\x7d', ';'] := String.toList_ofList
  have hcomma : Closed ", ".toList [.punct ','] := Closed.of_chars rfl
  have hspaced : ", ".toList = [',', ' '] := String.toList_ofList
  induction names with
  | nil => simpa using hend
  | cons name names ih =>
      rw [List.forall_mem_cons] at h
      have hname := IsIdent.plain h.1
      cases names with
      | nil =>
          rw [hbrace] at hend
          have hlast := hname.closed (by decide) hend
          rw [String.ofList_toList] at hlast
          simpa [hbrace] using hlast
      | cons next names =>
          have hrest := hcomma.append (ih h.2)
          rw [hspaced, List.cons_append] at hrest
          have hfirst := hname.closed (by decide) hrest
          rw [String.ofList_toList] at hfirst
          simpa [hspaced] using hfirst

namespace Module

variable (m : Module)

theorem imports_subset : ∀ name ∈ m.imports, name ∈ libraryNames := by
  intro name hname
  unfold imports at hname
  split_ifs at hname <;> revert hname <;> revert name <;> decide

theorem closed_importLine :
    Closed ("use argbind_core::\x7b" ++ ", ".intercalate m.imports ++ "\x7d;").toList
      (useTokens "argbind_core" m.imports) := by
  have hopen : Closed "use argbind_core::\x7b".toList
      [.word "use", .word "argbind_core", .sep, .punct '\x7b'] := Closed.of_chars rfl
  have hnames := closed_nameList fun name hname => isWord_libraryName (m.imports_subset name hname)
  have hline := hopen.append hnames
  rwa [String.toList_append, String.toList_append, String.toList_intercalate, List.append_assoc,
    useTokens, List.append_assoc]

/-- The header has a line that imports the names of the list. -/
theorem exists_importLine : ∃ line ∈ m.headerLines,
    tokens? line.toList = some (useTokens "argbind_core" m.imports) :=
  ⟨"use argbind_core::\x7b" ++ ", ".intercalate m.imports ++ "\x7d;",
    by simp [headerLines], m.closed_importLine.tokens?_eq⟩

/-- The items of a module, which stand behind its schema. -/
def itemLines : List String :=
  m.structLines ++ m.constructorLines ++ m.equalityLines ++ m.displayLines

theorem source_eq : m.source =
    unlines m.headerLines ++ unlines m.schemaLines ++ unlines m.itemLines := by
  rw [← unlines_append, ← unlines_append, itemLines, source, unlines]
  simp only [List.append_assoc]

/-- What stands before the chain and the items mention the type of the schema. -/
theorem exists_itemTokens (h : m.Readable) :
    ∃ items, tokens? (unlines m.itemLines).toList = some items ∧
      mentions libraryNames (schemaHead ++ items) = ["Schema", "Schema"] := by
  have hitems : Counts libraryNames (unlines m.itemLines).toList (.idle ["Schema"])
      (.idle ["Schema", "Schema"]) :=
    (((quiet_structLines h _).unlines_append (counts_constructorLines h _)).unlines_append
      (quiet_equalityLines h _)).unlines_append (quiet_displayLines h _)
  exact Counts.mentions_eq hitems rfl

/-- The imported names are those that the chain mentions and the type of the schema. -/
theorem imports_eq_filter : m.imports = libraryNames.filter fun name =>
    name ∈ (schemaExpr m.schema).mentions ∨ name ∈ ["Schema", "Schema"] := by
  have hneeded : ∀ name ∈ libraryNames,
      decide (name ∈ (schemaExpr m.schema).mentions ∨ name ∈ ["Schema", "Schema"]) =
        (name == "Schema" || (!m.schema.fields.isEmpty && name == "FieldSchema") ||
          (m.schema.fields.any (fun f => f.kind.type?.isSome) && name == "ValueType") ||
          (m.schema.fields.any (fun f => f.default.isSome) && name == "Value")) := by
    intro name hname
    have hany : (!m.schema.fields.isEmpty) = true ↔ ∃ f, f ∈ m.schema.fields := by
      cases m.schema.fields <;> simp
    rw [Bool.eq_iff_iff, decide_eq_true_iff, mem_mentions_schema hname]
    simp only [Bool.or_eq_true, Bool.and_eq_true, beq_iff_eq, List.any_eq_true, hany,
      List.mem_cons, List.not_mem_nil, or_false, or_self, and_or_left, exists_or,
      ← and_assoc, exists_and_right, or_assoc]
    by_cases hs : name = "Schema" <;> simp [hs]
  rw [List.filter_congr hneeded, imports]
  cases m.schema.fields.isEmpty <;>
    cases m.schema.fields.any (fun f => f.kind.type?.isSome) <;>
    cases m.schema.fields.any (fun f => f.default.isSome) <;> decide

end Module

/-! ## Generated modules -/

theorem Member.of_eq_error {f : Field} {e : InvalidIdentifier} (h : Member.of f = .error e) :
    f.name ∈ reservedWords ∧ e = ⟨f.name⟩ := by
  unfold Member.of fieldIdent? at h
  by_cases hreserved : reservedWords.contains f.name = true
  · rw [if_pos hreserved] at h
    exact ⟨List.contains_iff_mem.mp hreserved, (Except.error.inj h).symm⟩
  · rw [if_neg hreserved] at h
    split_ifs at h

namespace Module

variable {s : Schema} {structName : String}

theorem of_eq_ok {m : Module} (h : Module.of s structName = .ok m) :
    m.schema = s ∧ m.Readable := by
  unfold Module.of at h
  split at h
  · rename_i hstruct
    cases hdeclared : s.fields.mapM Member.of with
    | error e => simp [hdeclared, bind, Except.bind] at h
    | ok declared =>
        obtain rfl : (⟨s, structName, declared⟩ : Module) = m := by
          simpa [hdeclared, bind, Except.bind, pure, Except.pure] using h
        refine ⟨rfl, isWord_structName hstruct, fun member hmember => ?_⟩
        obtain ⟨f, hf, hof⟩ := exists_of_mem_mapM hdeclared member hmember
        exact Member.readable_of (s.wellFormed hf) hof
  · cases h

/-- A module is refused for the name of its struct, or for a field whose name is reserved. -/
theorem of_eq_error {e : InvalidIdentifier} (h : Module.of s structName = .error e) :
    (isStructName structName = false ∧ e = ⟨structName⟩) ∨
      ∃ f ∈ s.fields, f.name ∈ reservedWords ∧ e = ⟨f.name⟩ := by
  unfold Module.of at h
  split at h
  · cases hdeclared : s.fields.mapM Member.of with
    | error e' =>
        obtain rfl : e' = e := by simpa [hdeclared, bind, Except.bind] using h
        obtain ⟨f, hf, hof⟩ := exists_of_mapM_eq_error hdeclared
        exact Or.inr ⟨f, hf, Member.of_eq_error hof⟩
    | ok declared => simp [hdeclared, bind, Except.bind, pure, Except.pure] at h
  · rename_i hstruct
    exact Or.inl ⟨Bool.not_eq_true _ ▸ hstruct, (Except.error.inj h).symm⟩

end Module

/-- What is written is the text of a module. -/
theorem exists_module_of_emitAs {s : Schema} {structName text : String}
    (h : emitAs s structName = .ok text) :
    ∃ m, Module.of s structName = .ok m ∧ m.source = text := by
  unfold emitAs at h
  cases hm : Module.of s structName with
  | error e =>
      rw [hm] at h
      cases h
  | ok m =>
      rw [hm] at h
      exact ⟨m, rfl, Except.ok.inj h⟩

/-- What is refused is refused as a module. -/
theorem of_emitAs_eq_error {s : Schema} {structName : String} {e : InvalidIdentifier}
    (h : emitAs s structName = .error e) : Module.of s structName = .error e := by
  unfold emitAs at h
  cases hm : Module.of s structName with
  | error e' =>
      rw [hm] at h
      exact congrArg Except.error (Except.error.inj h)
  | ok m =>
      rw [hm] at h
      cases h

/-- A generated module rebuilds the schema that it was generated from.  Unless a name is
refused, a module is written, and its static item, read as Rust, holds a chain of calls
that stands for the schema: its name, its description and its fields, in order, once they
passed the validation.  The module imports the names of the library that the chain, what
stands before it and the items behind it mention, and no others. -/
theorem emitAs_rebuilds_schema (s : Schema) (structName : String) :
    (∃ e, emitAs s structName = .error e ∧
      ((isStructName structName = false ∧ e = ⟨structName⟩) ∨
        ∃ f ∈ s.fields, f.name ∈ reservedWords ∧ e = ⟨f.name⟩)) ∨
    ∃ (m : Module) (chain : Expr) (items : List Token),
      Module.of s structName = .ok m ∧
      emitAs s structName =
        .ok (unlines m.headerLines ++ unlines m.schemaLines ++ unlines m.itemLines) ∧
      static? schemaHead (unlines m.schemaLines).toList = some chain ∧
      chain.eval = some (.schema s) ∧
      tokens? (unlines m.itemLines).toList = some items ∧
      ∃ line ∈ m.headerLines, tokens? line.toList =
        some (useTokens "argbind_core" (libraryNames.filter fun name =>
          name ∈ chain.mentions ∨ name ∈ mentions libraryNames (schemaHead ++ items))) := by
  unfold emitAs
  cases hm : Module.of s structName with
  | error e => exact Or.inl ⟨e, rfl, Module.of_eq_error hm⟩
  | ok m =>
      obtain ⟨hschema, hreadable⟩ := Module.of_eq_ok hm
      obtain ⟨items, hitems, hmentions⟩ := m.exists_itemTokens hreadable
      obtain ⟨line, hline, htokens⟩ := m.exists_importLine
      refine Or.inr ⟨m, schemaExpr m.schema, items, rfl, ?_, m.static?_schemaLines, ?_, hitems,
        line, hline, ?_⟩
      · rw [← m.source_eq]
        rfl
      · rw [eval_schemaExpr, hschema]
      · rw [hmentions, ← m.imports_eq_filter, htokens]

/-- A schema with a description, a renamed option and two defaults. -/
def greetCommand : Schema where
  name := "greet"
  description := some "Says \"hello\"."
  fields := [.flag (some 'e') (some "emoji"),
    ((Field.valued none (some "type") .int).withDefault (.int (-1))).withName "kind",
    (Field.positional "name" .string).withDefault (.str "you\n")]
  name_not_blank := by decide
  consistent := by decide

theorem emitAs_rebuilds_greet :
    ∃ (m : Module) (chain : Expr),
      emitAs greetCommand "Greet" =
        .ok (unlines m.headerLines ++ unlines m.schemaLines ++ unlines m.itemLines) ∧
      static? schemaHead (unlines m.schemaLines).toList = some chain ∧
      chain.eval = some (.schema greetCommand) := by
  rcases emitAs_rebuilds_schema greetCommand "Greet" with
    ⟨e, -, ⟨hstruct, -⟩ | ⟨f, hf, hreserved, -⟩⟩ | ⟨m, chain, items, -, htext, hchain, heval, -⟩
  · exact absurd hstruct (by decide)
  · have hnames : ∀ f ∈ greetCommand.fields, f.name ∉ reservedWords := by decide
    exact absurd hreserved (hnames f hf)
  · exact ⟨m, chain, htext, hchain, heval⟩

end CommandSchema.Generated
