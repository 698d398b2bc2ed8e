import CommandSchema.Proofs.Generated.Member

/-!
# Behaviour of a generated struct

What the functions of a generated struct do, compared with the parser.  The items of the
module are taken apart into the fields of the struct and the functions that belong to it, and
the functions are run.
-/

namespace CommandSchema.Generated

open Rust

/-! ## Definitions of structs -/

/-- The type that tokens are. -/
def RustType.ofTokens? : List Token → Option RustType
  | [.word "bool"] => some .bool
  | [.word "u32"] => some .u32
  | [.word "i64"] => some .i64
  | [.word "String"] => some .string
  | [.word "Vec", .punct '<', .word "String", .punct '>'] => some .strings
  | _ => none

/-- The identifier and the type of a public field. -/
def fieldDeclaration? : List Token → Option (String × RustType)
  | .word "pub" :: .word ident :: .punct ':' :: type =>
    (RustType.ofTokens? type).map (ident, ·)
  | _ => none

/-- The fields of the struct with a given name. -/
def structFields? (name : String) : ModuleItem → Option (List (List Token))
  | .struct head fields =>
    if [.word "struct", .word name].isSuffixOf head then some fields else none
  | .impl _ _ => none

/-- The functions of an implementation, of a trait or of none. -/
def functions? (trait : List Token) (name : String) : ModuleItem → Option (List FunctionItem)
  | .impl head functions => if head = implHead trait name then some functions else none
  | .struct _ _ => none

/-- The element of a list that has no other. -/
def single? {α : Type} : List α → Option α
  | [a] => some a
  | _ => none

/-- A struct with its functions. -/
structure Definition where
  fields : List (String × RustType)
  functions : List FunctionItem
  /-- The functions of `PartialEq` and of `Display`. -/
  equality : List FunctionItem
  display : List FunctionItem

namespace Definition

/-- The definition of a struct among items. -/
def of? (name : String) (items : List ModuleItem) : Option Definition := do
  let fields ← single? (items.filterMap (structFields? name))
  return {
    fields := ← fields.mapM fieldDeclaration?
    functions := ← single? (items.filterMap (functions? [] name))
    equality := ← single? (items.filterMap
      (functions? [.word "PartialEq", .word "for"] name))
    display := ← single? (items.filterMap
      (functions? [.word "fmt", .sep, .word "Display", .word "for"] name)) }

variable (d : Definition) (lenient : Bool) (s : Schema)

/-- Parses tokens. -/
def parseArgs (tokens : List String) : Run Datum :=
  callIn lenient s d.functions.reverse "parse_args" [.slice tokens]

/-- Compares two values. -/
def eq (v w : Datum) : Run Datum :=
  callIn lenient s d.equality.reverse "eq" [v, w]

/-- Writes a value. -/
def fmt (v : Datum) : Run Datum :=
  callIn lenient s d.display.reverse "fmt" [v, .formatter]

/-- The value is a struct with the declared fields, at their types.  For each field of the
schema it holds what the result, which lists them in order, binds to the name of the field. -/
structure Holds (b : Bindings) (v : Datum) : Prop where
  shape : ∃ values, v = .record (d.fields.map Prod.fst) values ∧
    values.map Datum.type? = d.fields.map fun field => some field.2
  bound : ∀ f ∈ s.fields, ∃ ident value, fieldIdent? f.name = some ident ∧
    b.get? f.name = some value ∧ v.field? ident = some (.ofValue value)
  entries : b.entries.map Binding.name = s.fields.map Field.name

/-- The struct behaves like the parser.  That a parse is `accepted` holds in every context:
also where a value that stands in for a missing one would get the run stuck. -/
structure Refines (structName : String) : Prop where
  fields : ∃ order : List Field, order.Perm s.fields ∧
    (order.map Field.name).Pairwise (· < ·) ∧
    order.map (fun f => (fieldIdent? f.name, rustType f.kind)) =
      d.fields.map fun field => (some field.1, field.2)
  idents : (d.fields.map Prod.fst).Nodup
  rejected : ∀ lenient tokens e, s.parse tokens = .error e →
    d.parseArgs lenient s tokens = pure (.err e)
  accepted : ∀ lenient tokens b, s.parse tokens = .ok b →
    ∃ v, d.parseArgs lenient s tokens = pure (.ok v) ∧ d.Holds s b v
  equality : ∀ lenient tokens tokens' b b' v v', s.parse tokens = .ok b →
    s.parse tokens' = .ok b' → d.parseArgs lenient s tokens = pure (.ok v) →
    d.parseArgs lenient s tokens' = pure (.ok v') →
    d.eq lenient s v v' = pure (.bool (b == b'))
  display : ∀ lenient tokens b v text, s.parse tokens = .ok b →
    d.parseArgs lenient s tokens = pure (.ok v) →
    d.fmt lenient s v text =
      .ok (.ok .unit) (text ++ ({ b with schema := structName } : Bindings).render)

end Definition

namespace Module

variable (m : Module)

/-- The definition that a module holds. -/
def definition : Definition where
  fields := m.sorted.map fun member => (member.ident, rustType member.field.kind)
  functions := [schemaFunction, m.parseFunction]
  equality := [m.equalityFunction]
  display := [m.displayFunction]

theorem fieldDeclaration?_declaration (member : Member) :
    fieldDeclaration? member.declaration =
      some (member.ident, rustType member.field.kind) := by
  unfold Member.declaration
  cases rustType member.field.kind <;> rfl

theorem of?_items : Definition.of? m.structName m.items = some m.definition := by
  have hdeclarations : (m.sorted.map Member.declaration).mapM fieldDeclaration? =
      some (m.sorted.map fun member => (member.ident, rustType member.field.kind)) := by
    rw [List.mapM_map]
    have hmember : fieldDeclaration? ∘ Member.declaration =
        fun member => some (member.ident, rustType member.field.kind) :=
      funext fieldDeclaration?_declaration
    rw [hmember]
    exact List.mapM_pure
  have hstruct : m.items.filterMap (structFields? m.structName) =
      [m.sorted.map Member.declaration] := by
    simp [items, structItem, structFields?, structHead, List.isSuffixOf]
  have hfunctions : m.items.filterMap (functions? [] m.structName) =
      [[schemaFunction, m.parseFunction]] := by
    simp [items, structItem, functions?, implHead, List.filterMap_cons]
  have hequality : m.items.filterMap (functions? [.word "PartialEq", .word "for"] m.structName) =
      [[m.equalityFunction]] := by
    simp [items, structItem, functions?, implHead, List.filterMap_cons]
  have hdisplay : m.items.filterMap
      (functions? [.word "fmt", .sep, .word "Display", .word "for"] m.structName) =
        [[m.displayFunction]] := by
    simp [items, structItem, functions?, implHead, List.filterMap_cons]
  simp [Definition.of?, hstruct, hfunctions, hequality, hdisplay, hdeclarations, single?,
    definition]

end Module

/-! ## Running the functions -/

section Functions

variable {m : Module} {s : Schema} {ctx : Context}

theorem eval_parseCode_of_ok {env : List (String × Datum)} {tokens : List String} {b : Bindings}
    (htokens : env.lookup "tokens" = some (.slice tokens))
    (hcall : ctx.call "schema" [] = pure (.schema s)) (h : s.parse tokens = .ok b) :
    parseCode.eval ctx env = pure (.args b) := by
  simp [parseCode, Code.eval, Code.evalAll, Context.apply, Context.path, htokens, hcall, h,
    Datum.attempt]

theorem eval_parseCode_of_error {env : List (String × Datum)} {tokens : List String}
    {e : ParseError} (htokens : env.lookup "tokens" = some (.slice tokens))
    (hcall : ctx.call "schema" [] = pure (.schema s)) (h : s.parse tokens = .error e) :
    parseCode.eval ctx env = throw (.back (.err e)) := by
  simp [parseCode, Code.eval, Code.evalAll, Context.apply, Context.path, htokens, hcall, h,
    Datum.attempt]

theorem Module.parseFunction_statements (m : Module) :
    m.sorted = [] ∧ m.parseFunction.statements = [.run parseCode] ∨
      m.parseFunction.statements = [.bind "args" parseCode] := by
  by_cases hsorted : m.sorted = []
  · left
    exact ⟨hsorted, by simp [parseFunction, hsorted]⟩
  · right
    simp [parseFunction, hsorted]

/-- The result of the constructor, once a parse has succeeded. -/
theorem eval_parseResult {env : List (String × Datum)} {b : Bindings} {value : Field → Value}
    (hm : m.Covers s) (hb : b.Assigns s value)
    (hargs : m.sorted ≠ [] → env.lookup "args" = some (.args b)) :
    m.parseFunction.result.eval ctx env = pure (.ok (m.record value)) := by
  have hmember : ∀ member ∈ m.sorted,
      member.access.eval ctx env = pure (.ofValue (value member.field)) := by
    intro member hmember
    have hfield := hm.field_mem (List.mem_mergeSort.mp hmember)
    exact eval_access (hargs (List.ne_nil_of_mem hmember)) (hb.found _ hfield)
      (hb.typed _ hfield)
  simp [Module.parseFunction, Code.eval, Code.evalAll, evalAll_map hmember, Context.apply,
    Module.record]

theorem run_parseFunction_of_ok {tokens : List String} {b : Bindings} {value : Field → Value}
    (hm : m.Covers s) (hcall : ctx.call "schema" [] = pure (.schema s))
    (h : s.parse tokens = .ok b) (hb : b.Assigns s value) :
    m.parseFunction.run ctx [.slice tokens] = pure (.ok (m.record value)) := by
  have hparse : parseCode.eval ctx [("tokens", .slice tokens)] = pure (.args b) :=
    eval_parseCode_of_ok rfl hcall h
  funext text
  apply FunctionItem.run_of_ok rfl
  change runBody ctx _ [("tokens", .slice tokens)] _ text = _
  rcases m.parseFunction_statements with ⟨hsorted, hstatements⟩ | hstatements
  · have hresult : m.parseFunction.result.eval ctx [("tokens", .slice tokens)] =
        pure (.ok (m.record value)) := eval_parseResult hm hb (fun hne => absurd hsorted hne)
    rw [hstatements, runBody, hparse, pure_bind, runBody, hresult]
    rfl
  · have hresult : m.parseFunction.result.eval ctx [("args", .args b), ("tokens", .slice tokens)] =
        pure (.ok (m.record value)) := eval_parseResult hm hb (fun _ => rfl)
    rw [hstatements, runBody, hparse, pure_bind, runBody, hresult]
    rfl

theorem run_parseFunction_of_error {tokens : List String} {e : ParseError}
    (hcall : ctx.call "schema" [] = pure (.schema s)) (h : s.parse tokens = .error e) :
    m.parseFunction.run ctx [.slice tokens] = pure (.err e) := by
  have hparse : parseCode.eval ctx [("tokens", .slice tokens)] = throw (.back (.err e)) :=
    eval_parseCode_of_error rfl hcall h
  funext text
  apply FunctionItem.run_of_back rfl
  change runBody ctx _ [("tokens", .slice tokens)] _ text = _
  rcases m.parseFunction_statements with ⟨-, hstatements⟩ | hstatements
  · rw [hstatements, runBody, hparse]
    rfl
  · rw [hstatements, runBody, hparse]
    rfl

theorem run_equalityFunction {value value' : Field → Value} (hm : m.Covers s)
    (hvalue : ∀ f ∈ s.fields, f.kind.Admits (value f))
    (hvalue' : ∀ f ∈ s.fields, f.kind.Admits (value' f)) :
    m.equalityFunction.run ctx [m.record value, m.record value'] =
      pure (.bool (s.fields.all fun f => value f == value' f)) := by
  have hall : (s.fields.all fun f => value f == value' f) =
      m.sorted.all fun member => value member.field == value' member.field := by
    rw [← hm.perm_sorted.all_eq, List.all_map]
    rfl
  have hcomparison : ∀ member ∈ m.sorted, member.comparison.eval ctx
      [("self", m.record value), ("other", m.record value')] =
        pure (.bool (value member.field == value' member.field)) := by
    intro member hmember
    have hfield := hm.field_mem (List.mem_mergeSort.mp hmember)
    exact eval_comparison hm (List.mem_mergeSort.mp hmember) (hvalue _ hfield)
      (hvalue' _ hfield) rfl rfl
  funext text
  rw [hall]
  unfold Module.equalityFunction
  cases hsorted : m.sorted with
  | nil => exact FunctionItem.run_of_ok rfl rfl
  | cons first rest =>
      rw [hsorted, List.forall_mem_cons] at hcomparison
      apply FunctionItem.run_of_ok rfl
      change Code.eval ctx [("self", m.record value), ("other", m.record value')] _ text = _
      rw [eval_foldl_both hcomparison.1 hcomparison.2]
      rfl

theorem run_displayFunction {value : Field → Value} (hm : m.Covers s)
    (hname : IsWord m.structName.toList) (hvalue : ∀ f ∈ s.fields, f.kind.Admits (value f))
    (text : String) :
    m.displayFunction.run ctx [m.record value, .formatter] text =
      .ok (.ok .unit) (text ++ ("<" ++ m.structName ++
        String.join (s.fields.map fun f => f.shown (value f)) ++ ">")) := by
  have hless : "<".toList = ['<'] := String.toList_ofList
  have hplain : ∀ c ∈ ("<" ++ m.structName).toList, c ≠ '\x7b' ∧ c ≠ '\x7d' := by
    intro c hc
    rw [String.toList_append, hless, List.mem_append, List.mem_singleton] at hc
    rcases hc with rfl | hc
    · decide
    · exact ne_brace_of_isWordPart (hname.parts c hc)
  have hopen : Datum.format? ("<" ++ m.structName).toList [] =
      some ("<" ++ m.structName).toList := by
    simpa [Datum.format?] using format?_append hplain [] []
  have hgreater : ">".toList = ['>'] := String.toList_ofList
  have hclose : Datum.format? ">".toList [] = some ">".toList := by
    rw [hgreater]
    rfl
  apply FunctionItem.run_of_ok rfl
  change runBody ctx _ [("self", m.record value), ("f", .formatter)]
    (writeStatement ("<" ++ m.structName) [] :: m.declared.map Member.showStatement) text = _
  have hresult : m.displayFunction.result = .bang "write" [.path ["f"], .string ">"] := rfl
  rw [runBody_write rfl rfl hopen, runBody_showStatements hm (fun _ h => h) hvalue rfl rfl,
    hresult, eval_write rfl rfl hclose, String.ofList_toList, String.ofList_toList, ← hm.fields,
    List.map_map]
  simp only [String.append_assoc]
  rfl

end Functions

/-! ## The struct as a whole -/

namespace Module

variable {m : Module} {s : Schema} {lenient : Bool} {tokens : List String} {b : Bindings}
  {value : Field → Value}

theorem Covers.parseArgs_of_ok (hm : m.Covers s) (h : s.parse tokens = .ok b)
    (hb : b.Assigns s value) :
    m.definition.parseArgs lenient s tokens = pure (.ok (m.record value)) := by
  have hschema : callIn lenient s [schemaFunction] "schema" [] = pure (.schema s) := rfl
  exact run_parseFunction_of_ok hm hschema h hb

theorem Covers.eq_of_parseArgs {v : Datum} (hm : m.Covers s) (h : s.parse tokens = .ok b)
    (hb : b.Assigns s value)
    (hv : m.definition.parseArgs lenient s tokens = pure (.ok v)) : m.record value = v := by
  have hpure := (hm.parseArgs_of_ok h hb).symm.trans hv
  exact Datum.ok.inj (Run.pure_inj hpure)

theorem parseArgs_of_error {e : ParseError} (h : s.parse tokens = .error e) :
    m.definition.parseArgs lenient s tokens = pure (.err e) := by
  have hschema : callIn lenient s [schemaFunction] "schema" [] = pure (.schema s) := rfl
  exact run_parseFunction_of_error hschema h

theorem Covers.eq_record {value' : Field → Value} (hm : m.Covers s)
    (hvalue : ∀ f ∈ s.fields, f.kind.Admits (value f))
    (hvalue' : ∀ f ∈ s.fields, f.kind.Admits (value' f)) :
    m.definition.eq lenient s (m.record value) (m.record value') =
      pure (.bool (s.fields.all fun f => value f == value' f)) := by
  have hname : m.equalityFunction.name? = some "eq" := by
    unfold equalityFunction
    cases m.sorted <;> rfl
  have hcall : m.definition.eq lenient s (m.record value) (m.record value') =
      m.equalityFunction.run ⟨lenient, s, callIn lenient s []⟩
        [m.record value, m.record value'] := by
    change callIn lenient s [m.equalityFunction] "eq" _ = _
    rw [callIn, if_pos hname]
  rw [hcall, run_equalityFunction hm hvalue hvalue']

theorem Covers.holds_record (hm : m.Covers s) (hb : b.Assigns s value) :
    m.definition.Holds s b (m.record value) where
  shape := by
    refine ⟨m.sorted.map fun member => .ofValue (value member.field), ?_, ?_⟩
    · rw [definition, List.map_map]
      rfl
    · rw [definition, List.map_map, List.map_map]
      apply List.map_congr_left
      intro member hmember
      have hfield := hm.field_mem (List.mem_mergeSort.mp hmember)
      exact type?_ofValue (hb.typed _ hfield)
  bound := by
    intro f hf
    rw [← hm.fields] at hf
    obtain ⟨member, hmember, rfl⟩ := List.mem_map.mp hf
    have hfield := hm.field_mem hmember
    exact ⟨member.ident, value member.field, hm.idents member hmember, hb.found _ hfield,
      hm.field?_record value hmember⟩
  entries := by
    have hnames := congrArg (List.map Prod.fst) hb.entries
    rw [List.map_map, List.map_map] at hnames
    exact hnames

theorem Covers.refines (hm : m.Covers s) (hname : IsWord m.structName.toList) :
    m.definition.Refines s m.structName where
  fields := by
    refine ⟨m.sorted.map Member.field, hm.perm_sorted, ?_, ?_⟩
    · rw [List.map_map]
      exact hm.pairwise_sorted
    · rw [definition, List.map_map, List.map_map]
      apply List.map_congr_left
      intro member hmember
      simp [hm.idents member (List.mem_mergeSort.mp hmember)]
  idents := by
    rw [definition, List.map_map]
    exact hm.nodup_idents
  rejected := by
    intro lenient tokens e h
    exact parseArgs_of_error h
  accepted := by
    intro lenient tokens b h
    obtain ⟨value, hb⟩ := exists_assigns_of_parse h
    exact ⟨m.record value, hm.parseArgs_of_ok h hb, hm.holds_record hb⟩
  equality := by
    intro lenient tokens tokens' b b' v v' h h' hv hv'
    obtain ⟨value, hb⟩ := exists_assigns_of_parse h
    obtain ⟨value', hb'⟩ := exists_assigns_of_parse h'
    obtain rfl := hm.eq_of_parseArgs h hb hv
    obtain rfl := hm.eq_of_parseArgs h' hb' hv'
    rw [hm.eq_record hb.typed hb'.typed, hb.beq_eq_all hb']
  display := by
    intro lenient tokens b v text h hv
    obtain ⟨value, hb⟩ := exists_assigns_of_parse h
    obtain rfl := hm.eq_of_parseArgs h hb hv
    rw [hb.render_eq]
    exact run_displayFunction hm hname hb.typed text

end Module

/-- The struct of a generated module behaves like the parser.  The static item of the module
stands for the schema, and its items hold one definition of the struct: it has a field for
each field of the schema, sorted by name; its constructor fails as the parser fails, or else
gives each field the value that is bound to its name, at the declared type; and values are
equal, and are shown, as the results of the parser are. -/
theorem emitAs_refines_parse {s : Schema} {structName text : String}
    (h : emitAs s structName = .ok text) :
    ∃ (m : Module) (chain : Expr) (items : List ModuleItem) (d : Definition),
      Module.of s structName = .ok m ∧
      text = unlines m.headerLines ++ unlines m.schemaLines ++ unlines m.itemLines ∧
      static? schemaHead (unlines m.schemaLines).toList = some chain ∧
      chain.eval = some (.schema s) ∧
      items? (unlines m.itemLines).toList = some items ∧
      Definition.of? structName items = some d ∧
      d.Refines s structName := by
  unfold emitAs at h
  cases hm : Module.of s structName with
  | error e =>
      rw [hm] at h
      cases h
  | ok m =>
      rw [hm] at h
      obtain rfl : m.source = text := Except.ok.inj h
      obtain ⟨hschema, hreadable⟩ := Module.of_eq_ok hm
      obtain ⟨hstruct, hcovers⟩ := Module.covers_of_eq_ok hm
      refine ⟨m, schemaExpr m.schema, m.items, m.definition, rfl, m.source_eq,
        m.static?_schemaLines, ?_, m.items?_itemLines hreadable, ?_, ?_⟩
      · rw [eval_schemaExpr, hschema]
      · rw [← hstruct]
        exact m.of?_items
      · rw [← hstruct]
        exact hcovers.refines hreadable.structName

theorem emitAs_refines_greet :
    ∃ (text : String) (d : Definition) (v : Datum),
      emitAs greetCommand "Greet" = .ok text ∧
      d.parseArgs false greetCommand ["-e", "--type=5"] = pure (.ok v) ∧
      v.field? "kind" = some (.i64 5) ∧
      d.fmt false greetCommand v "" =
        .ok (.ok .unit) "<Greet emoji=true kind=5 name=\"you\\n\">" ∧
      d.parseArgs false greetCommand ["--kind"] = pure (.err (.unknownOption "--kind")) := by
  have hemit : ∃ text, emitAs greetCommand "Greet" = .ok text := ⟨_, rfl⟩
  obtain ⟨text, htext⟩ := hemit
  obtain ⟨m, chain, items, d, -, -, -, -, -, -, hrefines⟩ := emitAs_refines_parse htext
  have hparse : greetCommand.parse ["-e", "--type=5"] = .ok ⟨"greet", [⟨"emoji", .bool true, true⟩,
    ⟨"kind", .int 5, true⟩, ⟨"name", .str "you\n", false⟩]⟩ := rfl
  obtain ⟨v, hv, hholds⟩ := hrefines.accepted false _ _ hparse
  have hkind : ((Field.valued none (some "type") .int).withDefault (.int (-1))).withName "kind" ∈
      greetCommand.fields := by decide
  obtain ⟨ident, value, hident, hvalue, hfield⟩ := hholds.bound _ hkind
  obtain rfl : "kind" = ident := Option.some.inj hident
  obtain rfl : Value.int 5 = value := Option.some.inj hvalue
  refine ⟨text, d, v, htext, hv, hfield, ?_, hrefines.rejected false _ _ rfl⟩
  exact hrefines.display false _ _ _ "" hparse hv

end CommandSchema.Generated
