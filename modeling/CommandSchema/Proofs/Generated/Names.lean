import CommandSchema.Proofs.Generated.Behaviour
import CommandSchema.Proofs.Generated.Freshness
import CommandSchema.Proofs.Rust.Name

/-!
# Names in generated modules

What the struct of a generated module and its fields are called, next to the types and
traits that the module imports or refers to.  Fields can always be declared side by side.
The name of the struct may be a word that is taken: the rule for it knows neither the
keyword `Self` nor the types in use.
-/

namespace CommandSchema.Generated

open Rust

/-! ## Names of fields and structs -/

theorem isUsable_fieldIdent {name ident : String} (hname : isFieldName name = true)
    (h : fieldIdent? name = some ident) : IsUsable ident := by
  have hrawable : ∀ keyword ∈ rawKeywords, keyword ∈ keywords ∧ keyword ∉ pathKeywords := by
    decide
  have hknown : ∀ keyword ∈ keywords, keyword ∈ rawKeywords ∨ keyword ∈ reservedWords := by
    decide
  unfold fieldIdent? at h
  split_ifs at h with hreserved hraw
  · obtain rfl := Option.some.inj h
    obtain ⟨mem, rawable⟩ := hrawable name (List.contains_iff_mem.mp hraw)
    exact .raw mem rawable
  · obtain rfl := Option.some.inj h
    rw [List.contains_iff_mem] at hreserved hraw
    have hfree : name ∉ keywords := fun h => (hknown name h).elim hraw hreserved
    refine .plain (isWord_fieldName hname) ?_ hfree
    rintro rfl
    exact hreserved (by decide)

/-- The name of a struct can be declared unless it is the one keyword with a capital letter. -/
theorem isUsable_structName {name : String} (h : isStructName name = true) :
    IsUsable name ↔ name ≠ "Self" := by
  have hself : ∀ keyword ∈ keywords, isStructName keyword = true → keyword = "Self" := by decide
  rw [isUsable_iff_of_isWord (isWord_structName h)]
  constructor
  · rintro ⟨-, hfree⟩ rfl
    exact hfree (by decide)
  · intro hne
    refine ⟨?_, fun hkeyword => hne (hself name hkeyword h)⟩
    rintro rfl
    exact absurd h (by decide)

/-! ## Names in use -/

/-- The types that a type is written with. -/
def RustType.words : RustType → List String
  | bool => ["bool"]
  | u32 => ["u32"]
  | i64 => ["i64"]
  | string => ["String"]
  | strings => ["Vec", "String"]

/-- The names that every module imports or refers to as types. -/
def commonNames : List String :=
  ["fmt", "LazyLock", "Schema", "ArgError", "AsRef", "str", "Result", "argbind_parser", "Self",
    "PartialEq", "bool", "Eq"]

/-- The names that a field adds: those that its expression goes through, and those that the
type of the struct's field is written with. -/
def fieldNames (f : Field) : List String :=
  ["FieldSchema"] ++ (if f.kind.type?.isSome then ["ValueType"] else []) ++
    (if f.default.isSome then ["Value"] else []) ++ (rustType f.kind).words

/-- The names that the module for a schema imports or refers to as types. -/
def namesInUse (s : Schema) : List String :=
  commonNames ++ s.fields.flatMap fieldNames

theorem mem_fieldNames_iff {f : Field} {x : String} :
    x ∈ fieldNames f ↔ (x = "FieldSchema" ∨ f.kind.type?.isSome ∧ x = "ValueType" ∨
      f.default.isSome ∧ x = "Value") ∨ x ∈ (rustType f.kind).words := by
  simp only [fieldNames, List.mem_append, List.mem_singleton, List.mem_ite_nil_right, or_assoc]

theorem typeWords_declaration (member : Member) :
    typeWords member.declaration = (rustType member.field.kind).words := by
  unfold Member.declaration
  cases rustType member.field.kind <;> rfl

/-! ## The chain of calls -/

section Owners

variable {x : String}

theorem owners_type (type : ValueType) : (typeExpr type).owners = ["ValueType"] := by
  cases type <;> rfl

theorem ownersAll_forms (short : Option Char) (long : Option String) :
    Expr.ownersAll (formExprs short long) = [] := by
  cases short <;> cases long <;> rfl

theorem not_mem_ownersAll_owned (items : List String) :
    x ∉ Expr.ownersAll (items.map ownedExpr) := by
  rw [Expr.mem_ownersAll]
  rintro ⟨e, he, hmem⟩
  obtain ⟨item, -, rfl⟩ := List.mem_map.mp he
  simp [ownedExpr, Expr.owners, Expr.ownersAll] at hmem

theorem mem_owners_value {value : Value} (h : x ∈ (valueExpr value).owners) : x = "Value" := by
  cases value with
  | list items =>
      have hitems := not_mem_ownersAll_owned (x := x) items
      simpa [valueExpr, Expr.owners, Expr.ownersAll, pathOwner, hitems] using h
  | _ => simpa [valueExpr, ownedExpr, Expr.owners, Expr.ownersAll, pathOwner] using h

theorem mem_owners_constructor {f : Field} (h : x ∈ (Constructor.ofField f).expr.owners) :
    x = "FieldSchema" ∨ f.kind.type?.isSome ∧ x = "ValueType" := by
  have hforms := ownersAll_forms f.short f.long
  have happend : ∀ type, Expr.ownersAll (formExprs f.short f.long ++ [typeExpr type]) =
      ["ValueType"] := by
    intro type
    cases f.short <;> cases f.long <;> cases type <;> rfl
  cases hkind : f.kind <;>
    simpa [Constructor.ofField, hkind, Constructor.expr, Expr.owners, Expr.ownersAll, pathOwner,
      hforms, happend, owners_type, FieldKind.type?] using h

theorem mem_owners_methods {receiver : Expr} {methods : List Method}
    (h : x ∈ (methods.foldl Method.expr receiver).owners) :
    x ∈ receiver.owners ∨ (∃ value, .withDefault value ∈ methods) ∧ x = "Value" := by
  induction methods generalizing receiver with
  | nil => exact Or.inl h
  | cons m methods ih =>
      rcases ih h with hreceiver | ⟨⟨value, hmem⟩, hx⟩
      · cases m with
        | withDefault value =>
            simp only [Method.expr, Expr.owners, Expr.ownersAll, List.append_nil,
              List.mem_append] at hreceiver
            rcases hreceiver with hreceiver | hvalue
            · exact Or.inl hreceiver
            · exact Or.inr ⟨⟨value, List.mem_cons_self⟩, mem_owners_value hvalue⟩
        | _ => exact Or.inl (by simpa [Method.expr, Expr.owners, Expr.ownersAll] using hreceiver)
      · exact Or.inr ⟨⟨value, List.mem_cons_of_mem _ hmem⟩, hx⟩

theorem mem_owners_field {f : Field} (h : x ∈ (FieldCall.ofField f).expr.owners) :
    x ∈ fieldNames f := by
  refine mem_fieldNames_iff.mpr (Or.inl ?_)
  rcases mem_owners_methods h with hconstructor | ⟨⟨value, hmem⟩, hx⟩
  · rcases mem_owners_constructor hconstructor with hx | hx
    · exact Or.inl hx
    · exact Or.inr (Or.inl hx)
  · have hdefault := (withDefault_mem_methods f value).mp hmem
    exact Or.inr (Or.inr ⟨by rw [hdefault]; rfl, hx⟩)

theorem mem_owners_fields {chain : Expr} {fields : List Field}
    (h : x ∈ (fields.foldl fieldExpr chain).owners) :
    x ∈ chain.owners ∨ x ∈ fields.flatMap fieldNames := by
  induction fields generalizing chain with
  | nil => exact Or.inl h
  | cons f fields ih =>
      rw [List.flatMap_cons, List.mem_append]
      rcases ih h with hchain | hfields
      · simp only [fieldExpr, Expr.owners, Expr.ownersAll, List.append_nil,
          List.mem_append] at hchain
        exact hchain.imp_right fun hf => Or.inl (mem_owners_field hf)
      · exact Or.inr (Or.inr hfields)

theorem mem_owners_schema {s : Schema} (h : x ∈ (schemaExpr s).owners) : x ∈ namesInUse s := by
  have hchain : x = "LazyLock" ∨ x ∈ (s.fields.foldl fieldExpr (startExpr s)).owners := by
    simpa [schemaExpr, builtExpr, Expr.owners, Expr.ownersAll, pathOwner] using h
  rcases hchain with rfl | hchain
  · exact List.mem_append_left _ (by decide)
  rcases mem_owners_fields hchain with hstart | hfields
  · have hx : x = "Schema" := by
      unfold startExpr at hstart
      split at hstart <;> simpa [Expr.owners, Expr.ownersAll, pathOwner] using hstart
    exact List.mem_append_left _ (by rw [hx]; decide)
  · exact List.mem_append_right _ hfields

end Owners

/-! ## The items -/

namespace Module

variable (m : Module)

theorem owners_access (member : Member) : member.access.owners = [] := by
  unfold Member.access
  cases accessor member.field.kind <;> rfl

theorem ownersAll_access (members : List Member) :
    Code.ownersAll (members.map Member.access) = [] := by
  refine List.eq_nil_iff_forall_not_mem.mpr fun x hx => ?_
  obtain ⟨e, he, hmem⟩ := Code.mem_ownersAll.mp hx
  obtain ⟨member, -, rfl⟩ := List.mem_map.mp he
  rw [owners_access] at hmem
  exact List.not_mem_nil hmem

theorem typeNames_parseFunction : m.parseFunction.typeNames =
    ["AsRef", "str", "Result", "ArgError", "argbind_parser", "Self", "Self"] := by
  have hhead : headNames parseHead = ["AsRef", "str", "Result", "ArgError"] := by decide
  have hstatements : m.parseFunction.statements.flatMap Statement.owners =
      ["argbind_parser", "Self"] := by
    rcases m.parseFunction_statements with ⟨-, h⟩ | h <;> rw [h] <;> rfl
  have hresult : m.parseFunction.result.owners = ["Self"] := by
    change pathOwner ["Ok"] ++ Code.ownersAll [.record ["Self"] _ _] = _
    simp [Code.ownersAll, Code.owners, pathOwner, ownersAll_access]
  change headNames parseHead ++ _ ++ _ = _
  rw [hhead, hstatements, hresult]
  rfl

theorem owners_comparisons (members : List Member) (first : Code) :
    ((members.map Member.comparison).foldl Code.both first).owners = first.owners := by
  induction members generalizing first with
  | nil => rfl
  | cons member members ih =>
      rw [List.map_cons, List.foldl_cons, ih]
      simp [Member.comparison, Member.of?, Code.owners, pathOwner]

theorem typeNames_equalityFunction : m.equalityFunction.typeNames = ["bool"] := by
  unfold equalityFunction
  cases m.sorted with
  | nil => decide
  | cons first rest =>
      have hhead : headNames (equalityHead "other") = ["bool"] := by decide
      have hresult : first.comparison.owners = [] := rfl
      simp [FunctionItem.typeNames, hhead, owners_comparisons, hresult]

theorem typeNames_displayFunction : m.displayFunction.typeNames = ["fmt", "fmt"] := by
  have hhead : headNames displayHead = ["fmt", "fmt"] := by decide
  have hstatements : m.displayFunction.statements.flatMap Statement.owners = [] := by
    refine List.flatMap_eq_nil_iff.mpr fun statement hstatement => ?_
    rcases List.mem_cons.mp hstatement with rfl | hmem
    · rfl
    · obtain ⟨member, -, rfl⟩ := List.mem_map.mp hmem
      rfl
  change headNames displayHead ++ _ ++ [] = _
  rw [hhead, hstatements]
  rfl

/-- The items refer to the types of the struct's fields and to some names that do not depend
on the schema. -/
theorem typeNames_items : m.items.flatMap ModuleItem.typeNames =
    (m.sorted.flatMap fun member => (rustType member.field.kind).words) ++
      ["Schema", "AsRef", "str", "Result", "ArgError", "argbind_parser", "Self", "Self",
        "PartialEq", "bool", "Eq", "fmt", "fmt", "fmt"] := by
  have hfields : m.structItem.typeNames =
      m.sorted.flatMap fun member => (rustType member.field.kind).words := by
    change (m.sorted.map Member.declaration).flatMap typeWords = _
    rw [List.flatMap_map]
    exact List.flatMap_congr fun member _ => typeWords_declaration member
  have hschema : schemaFunction.typeNames = ["Schema"] := by decide
  have hnone : typeWords (implHead [] m.structName).dropLast = [] := rfl
  have hpartial : typeWords (implHead [.word "PartialEq", .word "for"] m.structName).dropLast =
      ["PartialEq"] := rfl
  have heq : typeWords (implHead [.word "Eq", .word "for"] m.structName).dropLast = ["Eq"] := rfl
  have hdisplay : typeWords (implHead [.word "fmt", .sep, .word "Display", .word "for"]
      m.structName).dropLast = ["fmt"] := rfl
  have himpl : ∀ head functions, (ModuleItem.impl head functions).typeNames =
      typeWords head.dropLast ++ functions.flatMap FunctionItem.typeNames := fun _ _ => rfl
  simp [items, hfields, himpl, hnone, hpartial, heq, hdisplay, hschema,
    typeNames_parseFunction, typeNames_equalityFunction, typeNames_displayFunction]

end Module

/-! ## Reading a module -/

/-- What the parts of a module are read as: the items with `use`, the chain of calls in the
static item, and the items behind it. -/
structure Reading where
  uses : List Token
  chain : Expr
  items : List ModuleItem

/-- The names that a module imports or refers to as types. -/
def Reading.typeNames (r : Reading) : List String :=
  imported r.uses ++ typeWords schemaHead ++ r.chain.owners ++
    r.items.flatMap ModuleItem.typeNames

namespace Module

variable (m : Module)

/-- The header behind its two comments. -/
def useLines : List String :=
  m.headerLines.drop 2

/-- The tokens of an item that imports one path. -/
def pathTokens (path : List String) : List Token :=
  .word "use" :: (path.map Token.word).intersperse .sep ++ [.punct ';']

/-- The items with `use`. -/
def useItems : List Token :=
  pathTokens ["std", "fmt"] ++ pathTokens ["std", "sync", "LazyLock"] ++
    useTokens "argbind_core" m.imports ++ pathTokens ["argbind_parser", "ArgError"]

/-- What a module is read as. -/
def reading? : Option Reading := do
  return { uses := ← tokens? (unlines m.useLines).toList
           chain := ← static? schemaHead (unlines m.schemaLines).toList
           items := ← items? (unlines m.itemLines).toList }

theorem closed_useLines : Closed (unlines m.useLines).toList m.useItems := by
  have hempty : Closed "".toList [] := Closed.of_chars rfl
  have hfmt : Closed "use std::fmt;".toList (pathTokens ["std", "fmt"]) := Closed.of_chars rfl
  have hlock : Closed "use std::sync::LazyLock;".toList (pathTokens ["std", "sync", "LazyLock"]) :=
    Closed.of_chars rfl
  have herror : Closed "use argbind_parser::ArgError;".toList
      (pathTokens ["argbind_parser", "ArgError"]) := Closed.of_chars rfl
  have hnil : Closed (unlines []).toList [] := rfl
  have hlines := hempty.unlines_cons (hfmt.unlines_cons (hlock.unlines_cons (hempty.unlines_cons
    (m.closed_importLine.unlines_cons (herror.unlines_cons (hempty.unlines_cons hnil))))))
  simpa [useItems, useLines, headerLines] using hlines

/-- The comments of the header hold no token if the name of the schema is on one line. -/
theorem tokens?_headerLines (hname : '\n' ∉ m.schema.name.toList) :
    tokens? (unlines m.headerLines).toList = some m.useItems := by
  have hopening : Closed ((opening ++ m.schema.name ++ Fingerprint.closing).toList ++ ['\n'])
      [] := by
    rw [String.toList_append, String.toList_append, List.append_assoc opening.toList]
    refine closed_of_prefix ((isRemark_opening []).1.trans ?_) ?_
    · rw [List.append_nil]
      exact List.prefix_append _ _
    · rw [List.mem_append, not_or]
      exact ⟨by decide, Fingerprint.newline_not_mem_append_closing hname⟩
  have hprint : Closed ((Fingerprint.marker ++
      Fingerprint.of m.schema m.structName).toList ++ ['\n']) [] := by
    rw [String.toList_append]
    refine closed_of_prefix (Fingerprint.comment_prefix_marker.trans (List.prefix_append _ _)) ?_
    rw [List.mem_append, not_or]
    refine ⟨by decide, fun hbreak => ?_⟩
    exact absurd (Fingerprint.not_blank_of_mem hbreak).1 (by decide)
  have hlines : m.headerLines = (opening ++ m.schema.name ++ Fingerprint.closing) ::
      (Fingerprint.marker ++ Fingerprint.of m.schema m.structName) :: m.useLines := rfl
  rw [hlines, toList_unlines_cons, toList_unlines_cons]
  exact (hopening.append (hprint.append m.closed_useLines)).tokens?_eq

theorem reading?_eq (h : m.Readable) :
    m.reading? = some ⟨m.useItems, schemaExpr m.schema, m.items⟩ := by
  rw [reading?, m.closed_useLines.tokens?_eq, m.static?_schemaLines, items?_itemLines h]
  rfl

theorem imported_useItems :
    imported m.useItems = ["fmt", "LazyLock"] ++ m.imports ++ ["ArgError"] := by
  unfold useItems imports
  cases m.schema.fields.isEmpty <;>
    cases m.schema.fields.any (fun f => f.kind.type?.isSome) <;>
    cases m.schema.fields.any (fun f => f.default.isSome) <;> decide

theorem mem_imports_iff {x : String} : x ∈ m.imports ↔
    x = "Schema" ∨ ∃ f ∈ m.schema.fields, x = "FieldSchema" ∨
      f.kind.type?.isSome ∧ x = "ValueType" ∨ f.default.isSome ∧ x = "Value" := by
  rw [m.imports_eq_filter, List.mem_filter, decide_eq_true_iff]
  constructor
  · rintro ⟨hx, hmentions | hschema⟩
    · exact (mem_mentions_schema hx m.schema).mp hmentions
    · exact Or.inl (by simpa using hschema)
  · intro h
    have hx : x ∈ libraryNames := by
      rcases h with rfl | ⟨f, -, rfl | ⟨-, rfl⟩ | ⟨-, rfl⟩⟩ <;> decide
    exact ⟨hx, Or.inl ((mem_mentions_schema hx m.schema).mpr h)⟩

theorem mem_memberWords_iff {s : Schema} (h : m.Covers s) {x : String} :
    x ∈ (m.sorted.flatMap fun member => (rustType member.field.kind).words) ↔
      ∃ f ∈ s.fields, x ∈ (rustType f.kind).words := by
  have hmap : (m.sorted.flatMap fun member => (rustType member.field.kind).words) =
      (m.sorted.map Member.field).flatMap fun f => (rustType f.kind).words := by
    rw [List.flatMap_map]
  rw [hmap, List.mem_flatMap]
  simp only [h.perm_sorted.mem_iff]

/-- A module imports or refers to the names in use, and to no others. -/
theorem mem_typeNames_iff (h : m.Covers m.schema) {x : String} :
    x ∈ (⟨m.useItems, schemaExpr m.schema, m.items⟩ : Reading).typeNames ↔
      x ∈ namesInUse m.schema := by
  have hhead : typeWords schemaHead = ["LazyLock", "Schema"] := by decide
  rw [Reading.typeNames, imported_useItems, typeNames_items, hhead]
  simp only [List.mem_append, m.mem_memberWords_iff h, mem_imports_iff]
  constructor
  · have hfixed : ∀ names : List String, (∀ name ∈ names, name ∈ commonNames) → x ∈ names →
        x ∈ namesInUse m.schema := fun names hnames hx => List.mem_append_left _ (hnames x hx)
    have hfield : ∀ f ∈ m.schema.fields, x ∈ fieldNames f → x ∈ namesInUse m.schema :=
      fun f hf hx => List.mem_append_right _ (List.mem_flatMap.mpr ⟨f, hf, hx⟩)
    rintro (((((hx | rfl | ⟨f, hf, hx⟩) | hx) | hx) | hx) | ⟨f, hf, hx⟩ | hx)
    · exact hfixed _ (by decide) hx
    · exact List.mem_append_left _ (by decide)
    · exact hfield f hf (mem_fieldNames_iff.mpr (Or.inl hx))
    · exact hfixed _ (by decide) hx
    · exact hfixed _ (by decide) hx
    · exact mem_owners_schema hx
    · exact hfield f hf (mem_fieldNames_iff.mpr (Or.inr hx))
    · exact hfixed _ (by decide) hx
  · have hcommon : ∀ name ∈ commonNames, name ∈ ["fmt", "LazyLock"] ∨ name ∈ ["Schema", "AsRef",
        "str", "Result", "ArgError", "argbind_parser", "Self", "Self", "PartialEq", "bool", "Eq",
        "fmt", "fmt", "fmt"] := by decide
    intro hx
    rcases List.mem_append.mp hx with hx | hx
    · rcases hcommon x hx with hx | hx
      · exact Or.inl (Or.inl (Or.inl (Or.inl (Or.inl hx))))
      · exact Or.inr (Or.inr hx)
    · obtain ⟨f, hf, hx⟩ := List.mem_flatMap.mp hx
      rcases mem_fieldNames_iff.mp hx with hx | hx
      · exact Or.inl (Or.inl (Or.inl (Or.inl (Or.inr (Or.inr ⟨f, hf, hx⟩)))))
      · exact Or.inr (Or.inl ⟨f, hf, hx⟩)

end Module

/-! ## The names of a module -/

theorem isStructName_of_eq_ok {s : Schema} {structName : String} {m : Module}
    (h : Module.of s structName = .ok m) : isStructName structName = true := by
  unfold Module.of at h
  split at h
  · rename_i hstruct
    exact hstruct
  · cases h

/-- What the names in the text of a module are.  The fields of the struct can be declared side
by side.  The struct can be declared, and is not mistaken for another type, exactly if its name
is not in use. -/
structure Names (s : Schema) (structName text : String) (m : Module) (r : Reading)
    (d : Definition) : Prop where
  made : Module.of s structName = .ok m
  text : text = unlines m.headerLines ++ unlines m.schemaLines ++ unlines m.itemLines
  reads : m.reading? = some r
  /-- The name of the schema stands in the first comment as it is. -/
  header : '\n' ∉ s.name.toList → tokens? (unlines m.headerLines).toList = some r.uses
  declares : Definition.of? structName r.items = some d
  fields : ∀ field ∈ d.fields, IsUsable field.1
  distinct : (d.fields.map Prod.fst).Nodup
  struct : isStructName structName = true
  inUse : ∀ name, name ∈ r.typeNames ↔ name ∈ namesInUse s
  struct_iff : IsUsable structName ∧ structName ∉ r.typeNames ↔ structName ∉ namesInUse s

theorem exists_names {s : Schema} {structName text : String}
    (h : emitAs s structName = .ok text) : ∃ m r d, Names s structName text m r d := by
  obtain ⟨m, hm, htext⟩ := exists_module_of_emitAs h
  obtain ⟨hschema, hreadable⟩ := Module.of_eq_ok hm
  obtain ⟨hname, hcovers⟩ := Module.covers_of_eq_ok hm
  subst hschema hname
  have hstruct := isStructName_of_eq_ok hm
  have hnames := fun name => m.mem_typeNames_iff hcovers (x := name)
  refine ⟨m, _, m.definition, hm, ?_, m.reading?_eq hreadable, m.tokens?_headerLines,
    m.of?_items, ?_, ?_, hstruct, hnames, ?_⟩
  · rw [← m.source_eq]
    exact htext.symm
  · intro field hfield
    obtain ⟨member, hmember, rfl⟩ := List.mem_map.mp hfield
    have hdeclared := List.mem_mergeSort.mp hmember
    exact isUsable_fieldIdent (m.schema.wellFormed (hcovers.field_mem hdeclared)).name
      (hcovers.idents member hdeclared)
  · have hidents : m.definition.fields.map Prod.fst = m.sorted.map Member.ident := by
      rw [Module.definition, List.map_map]
      rfl
    rw [hidents]
    exact hcovers.nodup_idents
  · rw [hnames, isUsable_structName hstruct]
    have hself : "Self" ∈ namesInUse m.schema := List.mem_append_left _ (by decide)
    constructor
    · exact And.right
    · intro hfree
      refine ⟨?_, hfree⟩
      intro hname
      rw [hname] at hfree
      exact hfree hself

theorem exists_emitAs_of_emit {s : Schema} {text : String} (h : emit s = .ok text) :
    ∃ structName, structName? s.name = some structName ∧ emitAs s structName = .ok text := by
  unfold emit at h
  split at h
  · rename_i structName hname
    exact ⟨structName, hname, h⟩
  · cases h

/-- Every identifier in a generated module is usable where it is declared, as far as its name
is not in use.  The fields of the struct have distinct names that can be declared.  The name of
the struct, given or derived from the name of the schema, can be declared and differs from all
names of types and traits that the module imports or refers to, unless it is one of them or
`Self`. -/
theorem emitted_names (s : Schema) :
    (∀ structName text, emitAs s structName = .ok text →
      ∃ m r d, Names s structName text m r d) ∧
    ∀ text, emit s = .ok text → ∃ structName m r d,
      structName? s.name = some structName ∧ Names s structName text m r d := by
  constructor
  · intro structName text h
    exact exists_names h
  · intro text h
    obtain ⟨structName, hname, hemit⟩ := exists_emitAs_of_emit h
    obtain ⟨m, r, d, hnames⟩ := exists_names hemit
    exact ⟨structName, m, r, d, hname, hnames⟩

theorem emitted_names_greet :
    (∃ text m r d, emitAs greetCommand "Type" = .ok text ∧
      Names greetCommand "Type" text m r d ∧ IsUsable "Type" ∧ "Type" ∉ r.typeNames) ∧
    ∃ text m r d, emit greetCommand = .ok text ∧
      Names greetCommand "Greet" text m r d ∧ IsUsable "Greet" ∧ "Greet" ∉ r.typeNames := by
  have hemitAs : ∃ text, emitAs greetCommand "Type" = .ok text := ⟨_, rfl⟩
  have hemit : ∃ text, emit greetCommand = .ok text := ⟨_, rfl⟩
  have hderived : structName? greetCommand.name = some "Greet" := by decide
  have hfree : "Type" ∉ namesInUse greetCommand ∧ "Greet" ∉ namesInUse greetCommand := by decide
  constructor
  · obtain ⟨text, htext⟩ := hemitAs
    obtain ⟨m, r, d, hnames⟩ := (emitted_names greetCommand).1 _ _ htext
    exact ⟨text, m, r, d, htext, hnames, hnames.struct_iff.mpr hfree.1⟩
  · obtain ⟨text, htext⟩ := hemit
    obtain ⟨structName, m, r, d, hname, hnames⟩ := (emitted_names greetCommand).2 _ htext
    obtain rfl := Option.some.inj (hderived.symm.trans hname)
    exact ⟨text, m, r, d, htext, hnames, hnames.struct_iff.mpr hfree.2⟩

/-- A schema whose name becomes a keyword. -/
def selfCommand : Schema where
  name := "self"
  description := none
  fields := [.flag (some 'q') (some "quiet")]
  name_not_blank := by decide
  consistent := by decide

/-- A module is written under a name that is a keyword, and under one that it refers to. -/
theorem emitted_names_taken :
    (∃ text, emit selfCommand = .ok text ∧ emitAs selfCommand "Self" = .ok text ∧
      ¬IsUsable "Self") ∧
    ∃ text m r d, emitAs selfCommand "Result" = .ok text ∧
      Names selfCommand "Result" text m r d ∧ "Result" ∈ r.typeNames := by
  constructor
  · have hself : ¬IsUsable "Self" := by
      rw [isUsable_structName (by decide)]
      exact fun hne => hne rfl
    exact ⟨_, rfl, rfl, hself⟩
  · have hemit : ∃ text, emitAs selfCommand "Result" = .ok text := ⟨_, rfl⟩
    obtain ⟨text, htext⟩ := hemit
    obtain ⟨m, r, d, hnames⟩ := exists_names htext
    exact ⟨text, m, r, d, htext, hnames, (hnames.inUse "Result").mpr (by decide)⟩

end CommandSchema.Generated
