import CommandSchema.Generated.Expression
import CommandSchema.Proofs.Rust.Spelling
import CommandSchema.Proofs.Schema.Consistency

/-!
# Expressions for fields, read back

The source of a field's expression spells calls of the constructors of schemas, and
these calls rebuild the field.  What the expression leaves out is what the constructors
supply, which a well-formed field agrees with.
-/

namespace CommandSchema.Generated

open Rust

/-! ## The expressions that are written -/

/-- An optional argument. -/
def optionExpr : Option Expr → Expr
  | some e => .call ["Some"] [e]
  | none => .path ["None"]

/-- A value type. -/
def typeExpr : ValueType → Expr
  | .int => .path ["ValueType", "Int"]
  | .string => .path ["ValueType", "String"]

/-- A text that the expression owns. -/
def ownedExpr (text : String) : Expr :=
  .method (.string text) "to_string" []

/-- A value. -/
def valueExpr : Value → Expr
  | .bool b => .call ["Value", "Bool"] [.path [if b then "true" else "false"]]
  | .int n => .call ["Value", "Int"] [.int n.toInt]
  | .count n => .call ["Value", "Count"] [.int n.toNat]
  | .str s => .call ["Value", "Str"] [ownedExpr s]
  | .list items => .call ["Value", "List"] [.vec (items.map ownedExpr)]

/-- The forms of an option as two arguments. -/
def formExprs (short : Option Char) (long : Option String) : List Expr :=
  [optionExpr (short.map .char), optionExpr (long.map .string)]

/-- A call of a constructor. -/
def Constructor.expr : Constructor → Expr
  | flag short long => .call ["FieldSchema", "flag"] (formExprs short long)
  | counter short long => .call ["FieldSchema", "counter"] (formExprs short long)
  | valued short long type =>
    .call ["FieldSchema", "valued"] (formExprs short long ++ [typeExpr type])
  | positional name type => .call ["FieldSchema", "positional"] [.string name, typeExpr type]
  | positionalList name => .call ["FieldSchema", "positional_list"] [.string name]

/-- A call of a method on an expression. -/
def Method.expr (receiver : Expr) : Method → Expr
  | withName name => .method receiver "with_name" [.string name]
  | withDefault value => .method receiver "with_default" [valueExpr value]
  | required => .method receiver "required" []
  | optional => .method receiver "optional" []
  | withDescription text => .method receiver "with_description" [.string text]

/-- The whole expression. -/
def FieldCall.expr (call : FieldCall) : Expr :=
  call.methods.foldl Method.expr call.constructor.expr

/-! ## Arguments -/

theorem spells_option {α : Type} {source : α → String} {expr : α → Expr}
    (h : ∀ a, Spells (source a).toList (expr a)) (o : Option α) :
    Spells (optionSource (o.map source)).toList (optionExpr (o.map expr)) := by
  intro frames
  cases o with
  | none => exact Reaches.of_chars ⟨[.word "None"], rfl, rfl⟩
  | some a =>
      have hopen : Leads Reader.step "Some(".toList ⟨.operand, frames⟩
          ⟨.operand, .call ["Some"] [] :: frames⟩ := Leads.of_chars ⟨_, rfl, rfl⟩
      have hclose := (h a).arguments ["Some"] [] frames
      simp only [optionSource, Option.map_some, String.toList_append, List.append_assoc]
      exact (hopen.trans hclose).reaches

theorem spells_type (type : ValueType) : Spells (typeSource type).toList (typeExpr type) := by
  intro frames
  cases type with
  | int => exact Reaches.of_chars ⟨[.word "ValueType", .sep, .word "Int"], rfl, rfl⟩
  | string => exact Reaches.of_chars ⟨[.word "ValueType", .sep, .word "String"], rfl, rfl⟩

theorem spells_owned (text : String) : Spells (ownedSource text).toList (ownedExpr text) := by
  intro frames
  have hmethod : Leads Reader.step ".to_string()".toList ⟨.more (.string text), frames⟩
      ⟨.more (ownedExpr text), frames⟩ :=
    leads_method_empty _ _ rfl (Closed.of_chars rfl)
  rw [ownedSource, String.toList_append]
  exact ((spellsWhole_quote text frames).trans hmethod).reaches

/-! ## Values and calls -/

theorem spells_truth (b : Bool) :
    Spells (if b then "true" else "false").toList (.path [if b then "true" else "false"]) := by
  intro frames
  cases b with
  | false => exact Reaches.of_chars ⟨[.word "false"], rfl, rfl⟩
  | true => exact Reaches.of_chars ⟨[.word "true"], rfl, rfl⟩

theorem spellsWhole_vec (items : List String) :
    SpellsWhole ("vec![" ++ ", ".intercalate (items.map ownedSource) ++ "]").toList
      (.vec (items.map ownedExpr)) := by
  intro frames
  have hopen : Leads Reader.step "vec![".toList ⟨.operand, frames⟩
      ⟨.operand, .vec [] :: frames⟩ := Leads.of_chars ⟨_, rfl, rfl⟩
  have hclose : "]".toList = [']'] := String.toList_ofList
  have hitems := hopen.trans (leads_items spells_owned items [] frames)
  rw [String.toList_append, String.toList_append, String.toList_intercalate, List.map_map,
    List.append_assoc, hclose]
  exact hitems

theorem spellsWhole_value (value : Value) :
    SpellsWhole (valueSource value).toList (valueExpr value) := by
  cases value with
  | bool b =>
      change SpellsWhole ("Value::Bool(" ++ (if b then "true" else "false") ++ ")").toList _
      exact (spells_truth b).arguments.call (Closed.of_chars rfl)
  | int n =>
      change SpellsWhole ("Value::Int(" ++ Text.decimal n.toInt ++ ")").toList _
      exact (spells_decimal n.toInt).arguments.call (Closed.of_chars rfl)
  | count n =>
      change SpellsWhole ("Value::Count(" ++ Text.decimal n.toNat ++ ")").toList _
      exact (spells_decimal n.toNat).arguments.call (Closed.of_chars rfl)
  | str s =>
      change SpellsWhole ("Value::Str(" ++ ownedSource s ++ ")").toList _
      exact (spells_owned s).arguments.call (Closed.of_chars rfl)
  | list items =>
      have hopen : "Value::List(vec![" = "Value::List(" ++ "vec![" := rfl
      have hclose : "])" = "]" ++ ")" := rfl
      have hhead : Closed "Value::List(".toList
          [.word "Value", .sep, .word "List", .punct '('] := Closed.of_chars rfl
      have hitems := (spellsWhole_vec items).spells.arguments.call hhead
      change SpellsWhole ("Value::List(vec![" ++ ", ".intercalate (items.map ownedSource) ++
        "])").toList _
      rw [hopen, hclose]
      simp only [String.append_assoc] at hitems ⊢
      exact hitems

theorem spellsArguments_forms (short : Option Char) (long : Option String) :
    SpellsArguments (formsSource short long).toList (formExprs short long) := by
  have hshort := spells_option (fun c => (spellsWhole_quoteChar c).spells) short
  have hlong := spells_option (fun text => (spellsWhole_quote text).spells) long
  rw [formsSource, String.toList_append, String.toList_append, List.append_assoc]
  exact hshort.cons_arguments hlong.arguments

theorem spellsArguments_typed (short : Option Char) (long : Option String) (type : ValueType) :
    SpellsArguments (formsSource short long ++ ", " ++ typeSource type).toList
      (formExprs short long ++ [typeExpr type]) := by
  have hshort := spells_option (fun c => (spellsWhole_quoteChar c).spells) short
  have hlong := spells_option (fun text => (spellsWhole_quote text).spells) long
  rw [formsSource]
  simp only [String.toList_append, List.append_assoc]
  exact hshort.cons_arguments (hlong.cons_arguments (spells_type type).arguments)

theorem Constructor.spellsWhole_source (c : Constructor) :
    SpellsWhole c.source.toList c.expr := by
  cases c with
  | flag short long =>
      change SpellsWhole ("FieldSchema::flag(" ++ formsSource short long ++ ")").toList _
      exact (spellsArguments_forms short long).call (Closed.of_chars rfl)
  | counter short long =>
      change SpellsWhole ("FieldSchema::counter(" ++ formsSource short long ++ ")").toList _
      exact (spellsArguments_forms short long).call (Closed.of_chars rfl)
  | valued short long type =>
      have hhead : Closed "FieldSchema::valued(".toList
          [.word "FieldSchema", .sep, .word "valued", .punct '('] := Closed.of_chars rfl
      have hcall := (spellsArguments_typed short long type).call hhead
      change SpellsWhole ("FieldSchema::valued(" ++ formsSource short long ++ ", " ++
        typeSource type ++ ")").toList _
      simp only [String.append_assoc] at hcall ⊢
      exact hcall
  | positional name type =>
      have hhead : Closed "FieldSchema::positional(".toList
          [.word "FieldSchema", .sep, .word "positional", .punct '('] := Closed.of_chars rfl
      have hargs : SpellsArguments (Text.quote name ++ (", " ++ typeSource type)).toList
          [.string name, typeExpr type] := by
        rw [String.toList_append, String.toList_append]
        exact (spellsWhole_quote name).spells.cons_arguments (spells_type type).arguments
      have hcall := hargs.call hhead
      change SpellsWhole ("FieldSchema::positional(" ++ Text.quote name ++ ", " ++
        typeSource type ++ ")").toList _
      simp only [String.append_assoc] at hcall ⊢
      exact hcall
  | positionalList name =>
      change SpellsWhole ("FieldSchema::positional_list(" ++ Text.quote name ++ ")").toList _
      exact (spellsWhole_quote name).spells.arguments.call (Closed.of_chars rfl)

/-! ## Methods -/

theorem takesMethods_constructor (c : Constructor) : Reader.takesMethods c.expr = true := by
  cases c <;> rfl

theorem takesMethods_method (receiver : Expr) (m : Method) :
    Reader.takesMethods (m.expr receiver) = true := by
  cases m <;> rfl

theorem Method.leads_source (m : Method) {receiver : Expr} (frames : List Frame)
    (htakes : Reader.takesMethods receiver = true) :
    Leads Reader.step m.source.toList ⟨.more receiver, frames⟩
      ⟨.more (m.expr receiver), frames⟩ := by
  cases m with
  | withName name =>
      change Leads Reader.step (".with_name(" ++ Text.quote name ++ ")").toList _ _
      exact leads_methodCall receiver frames htakes (Closed.of_chars rfl)
        (spellsWhole_quote name).spells
  | withDefault value =>
      change Leads Reader.step (".with_default(" ++ valueSource value ++ ")").toList _ _
      exact leads_methodCall receiver frames htakes (Closed.of_chars rfl)
        (spellsWhole_value value).spells
  | required => exact leads_method_empty receiver frames htakes (Closed.of_chars rfl)
  | optional => exact leads_method_empty receiver frames htakes (Closed.of_chars rfl)
  | withDescription text =>
      change Leads Reader.step (".with_description(" ++ Text.quote text ++ ")").toList _ _
      exact leads_methodCall receiver frames htakes (Closed.of_chars rfl)
        (spellsWhole_quote text).spells

theorem Method.leads_sources (methods : List Method) {receiver : Expr} (frames : List Frame)
    (htakes : Reader.takesMethods receiver = true) :
    Leads Reader.step (methods.flatMap fun m => m.source.toList) ⟨.more receiver, frames⟩
      ⟨.more (methods.foldl Method.expr receiver), frames⟩ := by
  induction methods generalizing receiver with
  | nil => exact Leads.refl _ _
  | cons m methods ih =>
      rw [List.flatMap_cons, List.foldl_cons]
      exact (m.leads_source frames htakes).trans (ih (takesMethods_method receiver m))

/-- The source of a field's expression spells it. -/
theorem FieldCall.spellsWhole_source (call : FieldCall) :
    SpellsWhole call.source.toList call.expr := by
  intro frames
  have hmethods := Method.leads_sources call.methods frames
    (takesMethods_constructor call.constructor)
  have htext : call.source.toList =
      call.constructor.source.toList ++ call.methods.flatMap fun m => m.source.toList := by
    rw [source, String.toList_append, String.toList_join, List.flatMap_map]
  rw [htext]
  exact (call.constructor.spellsWhole_source frames).trans hmethods

/-! ## What the expressions stand for -/

theorem evalAll_owned (items : List String) :
    Expr.evalAll (items.map ownedExpr) = some (items.map .owned) := by
  induction items with
  | nil => rfl
  | cons item items ih =>
      have hitem : (ownedExpr item).eval = some (.owned item) := rfl
      simp [Expr.evalAll, hitem, ih]

theorem mapM_owned? (items : List String) :
    (items.map Object.owned).mapM Object.owned? = some items := by
  induction items with
  | nil => rfl
  | cons item items ih => simp [Object.owned?, ih]

theorem eval_vec_owned (items : List String) :
    (Expr.vec (items.map ownedExpr)).eval = some (.texts items) := by
  simp only [Expr.eval, evalAll_owned, Option.bind_eq_bind, Option.bind_some, mapM_owned?,
    Option.pure_def]

theorem apply_int (n : Int64) :
    Object.apply ["Value", "Int"] [.int n.toInt] = some (.value (.int n)) := by
  have happly : Object.apply ["Value", "Int"] [.int n.toInt] =
      if -2 ^ 63 ≤ n.toInt ∧ n.toInt < 2 ^ 63 then some (.value (.int (Int64.ofInt n.toInt)))
      else none := rfl
  rw [happly, if_pos ⟨n.le_toInt, n.toInt_lt⟩, Int64.ofInt_toInt]

theorem apply_count (n : UInt32) :
    Object.apply ["Value", "Count"] [.int n.toNat] = some (.value (.count n)) := by
  have happly : ∀ i : Int, Object.apply ["Value", "Count"] [.int i] =
      if 0 ≤ i ∧ i < 2 ^ 32 then some (.value (.count (UInt32.ofNat i.toNat))) else none :=
    fun _ => rfl
  have hbound : (n.toNat : Int) < 2 ^ 32 := by
    have hlt := n.toNat_lt
    omega
  rw [happly, if_pos ⟨Int.natCast_nonneg _, hbound⟩, Int.toNat_natCast, UInt32.ofNat_toNat]

theorem eval_valueExpr (value : Value) : (valueExpr value).eval = some (.value value) := by
  cases value with
  | bool b => cases b <;> rfl
  | int n =>
      have hargs : Expr.evalAll [.int n.toInt] = some [.int n.toInt] := rfl
      rw [valueExpr, Expr.eval, hargs, Option.bind_eq_bind, Option.bind_some, apply_int]
  | count n =>
      have hargs : Expr.evalAll [.int n.toNat] = some [.int n.toNat] := rfl
      rw [valueExpr, Expr.eval, hargs, Option.bind_eq_bind, Option.bind_some, apply_count]
  | str s => rfl
  | list items =>
      have hargs : Expr.evalAll [.vec (items.map ownedExpr)] = some [.texts items] := by
        simp only [Expr.evalAll, eval_vec_owned, Option.bind_eq_bind, Option.bind_some,
          Option.pure_def]
      rw [valueExpr, Expr.eval, hargs]
      rfl

theorem Constructor.eval_expr (c : Constructor) : c.expr.eval = some (.field c.eval) := by
  cases c with
  | flag short long => cases short <;> cases long <;> rfl
  | counter short long => cases short <;> cases long <;> rfl
  | valued short long type => cases short <;> cases long <;> cases type <;> rfl
  | positional name type => cases type <;> rfl
  | positionalList name => rfl

theorem Method.eval_expr (m : Method) {receiver : Expr} {f : Field}
    (h : receiver.eval = some (.field f)) :
    (m.expr receiver).eval = some (.field (m.eval f)) := by
  cases m with
  | withDefault value =>
      have hargs : Expr.evalAll [valueExpr value] = some [.value value] := by
        simp [Expr.evalAll, eval_valueExpr]
      rw [expr, Expr.eval, h, hargs]
      rfl
  | _ =>
      rw [expr, Expr.eval, h]
      rfl

theorem FieldCall.eval_expr (call : FieldCall) : call.expr.eval = some (.field call.eval) := by
  have hmethods : ∀ (methods : List Method) (receiver : Expr) (f : Field),
      receiver.eval = some (.field f) →
      (methods.foldl Method.expr receiver).eval = some (.field (methods.foldl Method.eval f)) := by
    intro methods
    induction methods with
    | nil => exact fun _ _ h => h
    | cons m methods ih => exact fun receiver f h => ih _ _ (m.eval_expr h)
  exact hmethods call.methods _ _ call.constructor.eval_expr

/-! ## What the constructors leave to the methods -/

/-- The constructor for a field gives it everything but what the methods can supply. -/
theorem Constructor.eval_ofField {f : Field} (h : f.WellFormed) :
    (ofField f).eval = { f with
      name := (ofField f).eval.name
      required := (ofField f).eval.required
      default := none
      description := none } := by
  obtain ⟨name, kind, short, long, required, default, description⟩ := f
  have hform := h.positional_form
  cases kind with
  | flag => rfl
  | counter => rfl
  | valued type => rfl
  | positional type =>
      obtain ⟨rfl, rfl⟩ := hform rfl
      rfl
  | positionalList =>
      obtain ⟨rfl, rfl⟩ := hform rfl
      rfl

namespace FieldCall

variable {f : Field} (made g : Field)

theorem foldl_name (h : g.name = made.name) :
    (if made.name = f.name then [] else [Method.withName f.name]).foldl Method.eval g =
      g.withName f.name := by
  split
  · rename_i hname
    rw [List.foldl_nil, ← hname, ← h, Field.withName]
  · rfl

/-- A default clears whether the field is required, as a well-formed field has it; without
one, the field is made what the constructor did not make it. -/
theorem foldl_supplyMethod (hf : f.WellFormed) (hrequired : g.required = made.required)
    (hdefault : g.default = none) :
    (supplyMethod f made).foldl Method.eval g =
      { g with required := f.required, default := f.default } := by
  obtain ⟨name, kind, short, long, required, default, description⟩ := g
  obtain rfl : required = made.required := hrequired
  obtain rfl : default = none := hdefault
  cases hd : f.default with
  | some value =>
      have hr := (hf.default value hd).1
      simp [supplyMethod, hd, hr, Method.eval, Field.withDefault]
  | none =>
      cases hr : f.required <;> cases hm : made.required <;>
        simp [supplyMethod, hd, hr, hm, Method.eval, Field.asRequired, Field.asOptional]

theorem foldl_description (h : g.description = none) :
    (f.description.map Method.withDescription).toList.foldl Method.eval g =
      { g with description := f.description } := by
  cases hd : f.description with
  | some text => rfl
  | none =>
      obtain ⟨name, kind, short, long, required, default, description⟩ := g
      obtain rfl : description = none := h
      rfl

/-- The expression for a well-formed field stands for the field. -/
theorem eval_ofField (h : f.WellFormed) : (ofField f).eval = f := by
  have hmade := Constructor.eval_ofField h
  generalize hg : (Constructor.ofField f).eval = made at hmade
  have hdefault : made.default = none := by rw [hmade]
  have hdescription : made.description = none := by rw [hmade]
  have hfold : (ofField f).eval = ((if made.name = f.name then [] else [Method.withName f.name]) ++
      supplyMethod f made ++ (f.description.map Method.withDescription).toList).foldl
        Method.eval made := by
    rw [← hg]
    rfl
  have hsupply := foldl_supplyMethod made (made.withName f.name) h rfl hdefault
  rw [hfold, List.foldl_append, List.foldl_append, foldl_name made made rfl, hsupply,
    foldl_description (f := f) _ (by exact hdescription), hmade]
  rfl

end FieldCall

end CommandSchema.Generated
