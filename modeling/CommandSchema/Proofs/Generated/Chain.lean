import CommandSchema.Generated.Source
import CommandSchema.Proofs.Generated.FieldCall
import CommandSchema.Proofs.Rust.Line

/-!
# The schema of a generated module, read back

The static item of a generated module holds a chain of calls.  The chain names a schema,
describes it, adds its fields one by one and builds it.  What it builds is the schema
that the module was generated from.
-/

namespace CommandSchema.Generated

open Rust

/-! ## The chain that is written -/

/-- The beginning of a chain, up to the description. -/
def startExpr (s : Schema) : Expr :=
  match s.description with
  | some text => .method (.call ["Schema", "builder"] [.string s.name]) "description"
      [.string text]
  | none => .call ["Schema", "builder"] [.string s.name]

/-- A chain to which a field is added. -/
def fieldExpr (chain : Expr) (f : Field) : Expr :=
  .method chain "field" [(FieldCall.ofField f).expr]

/-- A chain that builds a schema with the fields added so far. -/
def builtExpr (chain : Expr) : Expr :=
  .method (.method chain "build" []) "expect" [.string "generated schema must be valid"]

/-- The whole chain, which runs once it is needed. -/
def schemaExpr (s : Schema) : Expr :=
  .call ["LazyLock", "new"] [.closure (builtExpr (s.fields.foldl fieldExpr (startExpr s)))]

/-- What stands before the chain. -/
def schemaHead : List Token :=
  [.word "static", .word "SCHEMA", .punct ':', .word "LazyLock", .punct '<', .word "Schema",
    .punct '>', .punct '=']

/-- What the chain stands inside of. -/
def schemaFrames : List Frame :=
  [.closure none, .call ["LazyLock", "new"] []]

/-! ## Reading the chain -/

theorem static?_of_leads {front back : List Char} {head : List Token} {e : Expr}
    (hhead : Closed front head)
    (hback : Leads Reader.step back ⟨.operand, []⟩ ⟨.nothing e, []⟩) :
    static? head (front ++ back) = some e := by
  obtain ⟨tokens, hclosed, hfold⟩ := hback
  have htokens := (hhead.append hclosed).tokens?_eq
  simp [static?, htokens, hfold, guard]

section Lines

variable (receiver : Expr) (frames : List Frame)

theorem leads_descriptionLines (s : Schema) :
    Leads Reader.step (unlines (s.description.map fun d =>
        "        .description(" ++ Text.quote d ++ ")").toList).toList
      ⟨.more (.call ["Schema", "builder"] [.string s.name]), frames⟩
      ⟨.more (startExpr s), frames⟩ := by
  unfold startExpr
  cases s.description with
  | none => exact Leads.unlines_nil
  | some text =>
      refine Leads.unlines_cons (Leads.newline ?_) Leads.unlines_nil
      exact leads_methodCall _ frames rfl (Closed.of_chars rfl) (spellsWhole_quote text).spells

theorem takesMethods_fieldExpr (f : Field) :
    Reader.takesMethods (fieldExpr receiver f) = true := rfl

theorem leads_fieldLines (fields : List Field) (htakes : Reader.takesMethods receiver = true) :
    Leads Reader.step (unlines (fields.map fun f =>
        "        .field(" ++ (FieldCall.ofField f).source ++ ")")).toList
      ⟨.more receiver, frames⟩ ⟨.more (fields.foldl fieldExpr receiver), frames⟩ := by
  induction fields generalizing receiver with
  | nil => exact Leads.unlines_nil
  | cons f fields ih =>
      refine Leads.unlines_cons (Leads.newline ?_) (ih _ (takesMethods_fieldExpr receiver f))
      exact leads_methodCall receiver frames htakes (Closed.of_chars rfl)
        (FieldCall.ofField f).spellsWhole_source.spells

end Lines

theorem takesMethods_startExpr (s : Schema) : Reader.takesMethods (startExpr s) = true := by
  unfold startExpr
  split <;> rfl

theorem takesMethods_foldl (fields : List Field) {receiver : Expr}
    (h : Reader.takesMethods receiver = true) :
    Reader.takesMethods (fields.foldl fieldExpr receiver) = true := by
  induction fields generalizing receiver with
  | nil => exact h
  | cons f fields ih => exact ih (takesMethods_fieldExpr receiver f)

theorem leads_endLines {chain : Expr} (htakes : Reader.takesMethods chain = true) :
    Leads Reader.step (unlines ["        .build()",
        "        .expect(\"generated schema must be valid\")", "\x7d);", ""]).toList
      ⟨.more chain, schemaFrames⟩
      ⟨.nothing (.call ["LazyLock", "new"] [.closure (builtExpr chain)]), []⟩ := by
  have hbuild : Leads Reader.step "        .build()".toList
      ⟨.more chain, schemaFrames⟩ ⟨.more (.method chain "build" []), schemaFrames⟩ :=
    leads_method_empty _ _ htakes (Closed.of_chars rfl)
  have hexpect : Leads Reader.step "        .expect(\"generated schema must be valid\")".toList
      ⟨.more (.method chain "build" []), schemaFrames⟩ ⟨.more (builtExpr chain), schemaFrames⟩ :=
    Leads.of_chars ⟨_, rfl, rfl⟩
  have hclose : Leads Reader.step "\x7d);".toList
      ⟨.more (builtExpr chain), schemaFrames⟩
      ⟨.nothing (.call ["LazyLock", "new"] [.closure (builtExpr chain)]), []⟩ :=
    Leads.of_chars ⟨_, rfl, rfl⟩
  have hempty : ∀ r : Reader, Leads Reader.step "".toList r r := fun r =>
    Leads.of_chars (Leads.refl _ r)
  exact Leads.unlines_cons hbuild.newline (Leads.unlines_cons hexpect.newline
    (Leads.unlines_cons hclose.newline
      (Leads.unlines_cons (hempty _).newline Leads.unlines_nil)))

/-- The lines of the schema hold a static item that is set to the chain. -/
theorem Module.static?_schemaLines (m : Module) :
    static? schemaHead (unlines m.schemaLines).toList = some (schemaExpr m.schema) := by
  have hhead : Closed "static SCHEMA: LazyLock<Schema> =".toList schemaHead :=
    Closed.of_chars rfl
  have hopen : Leads Reader.step " LazyLock::new(|| \x7b".toList ⟨.operand, []⟩
      ⟨.operand, schemaFrames⟩ := Leads.of_chars ⟨_, rfl, rfl⟩
  have hname : Closed "    Schema::builder(".toList
      [.word "Schema", .sep, .word "builder", .punct '('] := Closed.of_chars rfl
  have hstart : Leads Reader.step ("    Schema::builder(" ++ Text.quote m.schema.name ++ ")").toList
      ⟨.operand, schemaFrames⟩
      ⟨.more (.call ["Schema", "builder"] [.string m.schema.name]), schemaFrames⟩ :=
    (spellsWhole_quote m.schema.name).spells.arguments.call hname _
  have htext : (unlines m.schemaLines).toList = "static SCHEMA: LazyLock<Schema> =".toList ++
      (" LazyLock::new(|| \x7b".toList ++ ['\n'] ++ (unlines (
        ["    Schema::builder(" ++ Text.quote m.schema.name ++ ")"] ++
        (m.schema.description.map fun d => "        .description(" ++ Text.quote d ++ ")").toList ++
        (m.schema.fields.map fun f => "        .field(" ++ (FieldCall.ofField f).source ++ ")") ++
        ["        .build()", "        .expect(\"generated schema must be valid\")", "\x7d);",
          ""])).toList) := by
    have hline : "static SCHEMA: LazyLock<Schema> = LazyLock::new(|| \x7b" =
        "static SCHEMA: LazyLock<Schema> =" ++ " LazyLock::new(|| \x7b" := rfl
    rw [Module.schemaLines, List.cons_append, List.cons_append, List.cons_append,
      toList_unlines_cons, hline, String.toList_append, List.append_assoc, List.append_assoc]
    rfl
  rw [htext]
  refine static?_of_leads hhead (hopen.newline.trans ?_)
  have hmethods := takesMethods_startExpr m.schema
  have hdescription := leads_descriptionLines schemaFrames m.schema
  have hfields := leads_fieldLines (startExpr m.schema) schemaFrames m.schema.fields hmethods
  have hend := leads_endLines (takesMethods_foldl m.schema.fields hmethods)
  exact (((Leads.unlines_cons hstart.newline Leads.unlines_nil).unlines_append
    hdescription).unlines_append hfields).unlines_append hend

/-! ## What the chain builds -/

theorem eval_startExpr (s : Schema) :
    (startExpr s).eval = some (.builder s.name s.description []) := by
  unfold startExpr
  split
  · rename_i text hd
    rw [hd]
    rfl
  · rename_i hd
    rw [hd]
    rfl

theorem eval_fieldExpr {chain : Expr} {name : String} {description : Option String}
    {before : List Field} {f : Field} (hchain : chain.eval = some (.builder name description before))
    (hf : f.WellFormed) :
    (fieldExpr chain f).eval = some (.builder name description (before ++ [f])) := by
  have hfield : (FieldCall.ofField f).expr.eval = some (.field f) := by
    rw [FieldCall.eval_expr, FieldCall.eval_ofField hf]
  have hargs : Expr.evalAll [(FieldCall.ofField f).expr] = some [.field f] := by
    simp [Expr.evalAll, hfield]
  rw [fieldExpr, Expr.eval, hchain, hargs]
  rfl

/-- Each call adds its field behind the fields of the calls before it. -/
theorem eval_foldl_fieldExpr {fields : List Field} (hfields : ∀ f ∈ fields, f.WellFormed)
    {chain : Expr} {name : String} {description : Option String} {before : List Field}
    (hchain : chain.eval = some (.builder name description before)) :
    (fields.foldl fieldExpr chain).eval =
      some (.builder name description (before ++ fields)) := by
  induction fields generalizing chain before with
  | nil => rwa [List.append_nil, List.foldl_nil]
  | cons f fields ih =>
      rw [List.forall_mem_cons] at hfields
      have hnext := ih hfields.2 (eval_fieldExpr hchain hfields.1)
      rwa [List.append_assoc, List.singleton_append] at hnext

theorem eval_builtExpr {chain : Expr} {s : Schema}
    (hchain : chain.eval = some (.builder s.name s.description s.fields)) :
    (builtExpr chain).eval = some (.schema s) := by
  have hbuild : (Expr.method chain "build" []).eval = some (.built (.ok s)) := by
    rw [Expr.eval, hchain, ← s.build_self]
    rfl
  rw [builtExpr, Expr.eval, hbuild]
  rfl

/-- The chain that is written for a schema stands for the schema. -/
theorem eval_schemaExpr (s : Schema) : (schemaExpr s).eval = some (.schema s) := by
  have hfields := eval_foldl_fieldExpr (fun _ hf => s.wellFormed hf) (eval_startExpr s)
  have hbuilt := eval_builtExpr hfields
  have hargs : Expr.evalAll [.closure (builtExpr (s.fields.foldl fieldExpr (startExpr s)))] =
      some [.schema s] := by
    simp [Expr.evalAll, Expr.eval, hbuilt]
  rw [schemaExpr, Expr.eval, hargs]
  rfl

end CommandSchema.Generated
