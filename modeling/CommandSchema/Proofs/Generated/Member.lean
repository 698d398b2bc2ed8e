import CommandSchema.Proofs.Generated.Struct
import CommandSchema.Proofs.Parse.Totality
import CommandSchema.Proofs.Rust.Evaluation
import Mathlib.Data.String.Basic

/-!
# Members of a generated struct

What the generated expressions do with one member: how its value is read out of a result,
compared and written.  Type, access and format are chosen for the kind of the field, each on
its own; a value of that kind fits them all.
-/

namespace CommandSchema.Generated

open Rust

/-! ## Values of a kind -/

section Kinds

variable {kind : FieldKind} {v w : Value}

theorem type?_ofValue (h : kind.Admits v) : (Datum.ofValue v).type? = some (rustType kind) := by
  cases h with
  | flag b => rfl
  | counter n => rfl
  | valued h | positional h => cases h <;> rfl
  | positionalList items => rfl

theorem equal?_ofValue (hv : kind.Admits v) (hw : kind.Admits w) :
    (Datum.ofValue v).equal? (Datum.ofValue w) = some (v == w) := by
  cases hv with
  | flag b =>
      cases hw
      simp [Datum.ofValue, Datum.equal?, Bool.beq_eq_decide_eq]
  | counter n | positionalList items =>
      cases hw
      simp [Datum.ofValue, Datum.equal?]
  | valued hv =>
      cases hw with
      | valued hw => cases hv <;> cases hw <;> simp [Datum.ofValue, Datum.equal?]
  | positional hv =>
      cases hw with
      | positional hw => cases hv <;> cases hw <;> simp [Datum.ofValue, Datum.equal?]

/-- The place of a value in a format string is filled with the text of the value. -/
theorem format?_show (h : kind.Admits v) :
    Datum.format? (showing kind).source.toList [Datum.ofValue v] = some v.render.toList := by
  have hplain : Show.plain.source.toList = ['\x7b', '\x7d'] := String.toList_ofList
  have hquoted : Show.quoted.source.toList = ['\x7b', ':', '?', '\x7d'] := String.toList_ofList
  cases h with
  | flag b => simp [showing, hplain, Datum.format?, Datum.ofValue, Datum.display?, Value.render]
  | counter n => simp [showing, hplain, Datum.format?, Datum.ofValue, Datum.display?, Value.render]
  | valued h | positional h =>
      cases h with
      | int n =>
          simp [showing, hplain, Datum.format?, Datum.ofValue, Datum.display?, Value.render]
      | string text =>
          simp [showing, hquoted, Datum.format?, Datum.ofValue, Datum.debug?, Value.render]
  | positionalList items =>
      simp [showing, hquoted, Datum.format?, Datum.ofValue, Datum.debug?, Value.render]

variable {ctx : Context} {env : List (String × Datum)} {b : Bindings} {name : String}

theorem eval_read (hargs : env.lookup "args" = some (.args b)) (method : String) :
    (Code.method (.path ["args"]) method [.string name]).eval ctx env =
      Datum.invoke ctx.lenient (.args b) method [.str name] := by
  have hpath : ctx.path env ["args"] = pure (.args b) := by simp [Context.path, hargs]
  simp [Code.eval, Code.evalAll, hpath]

theorem eval_method {receiver : Code} {d : Datum} (h : receiver.eval ctx env = pure d)
    (method : String) :
    (Code.method receiver method []).eval ctx env = Datum.invoke ctx.lenient d method [] := by
  simp [Code.eval, Code.evalAll, h]

/-- The access for a kind gives the value that is bound, and falls back to no other: the run
would be stuck if the context does not allow it. -/
theorem eval_access (hargs : env.lookup "args" = some (.args b)) (hfound : b.get? name = some v)
    (h : kind.Admits v) : ((accessor kind).code name).eval ctx env = pure (Datum.ofValue v) := by
  cases h with
  | flag truth =>
      have hflag : (b.get? name).bind Value.bool? = some truth := by
        rw [hfound]
        rfl
      refine (eval_read hargs "flag").trans ?_
      change Datum.fallBack _ ((b.get? name).bind Value.bool?).isSome
        (.bool (((b.get? name).bind Value.bool?).getD false)) = _
      rw [hflag]
      rfl
  | counter n =>
      have hcount : (b.get? name).bind Value.count? = some n := by
        rw [hfound]
        rfl
      refine (eval_read hargs "count").trans ?_
      change Datum.fallBack _ ((b.get? name).bind Value.count?).isSome
        (.u32 (((b.get? name).bind Value.count?).getD 0)) = _
      rw [hcount]
      rfl
  | valued h | positional h =>
      cases h with
      | int n =>
          have hint : b.int? name = some n := by
            rw [Bindings.int?, hfound]
            rfl
          have hread : (Code.method (.path ["args"]) "int" [.string name]).eval ctx env =
              pure (.intOption (some n)) := by
            rw [eval_read hargs, ← hint]
            rfl
          exact eval_method hread "unwrap_or_default"
      | string text =>
          have hstr : b.str? name = some text := by
            rw [Bindings.str?, hfound]
            rfl
          have hread : (Code.method (.path ["args"]) "string" [.string name]).eval ctx env =
              pure (.strOption (some text)) := by
            rw [eval_read hargs, ← hstr]
            rfl
          have hvalue := eval_method hread "unwrap_or_default"
          exact eval_method (d := .str text) hvalue "to_string"
  | positionalList items =>
      have hlist : b.list? name = some items := by
        rw [Bindings.list?, hfound]
        rfl
      have hread : (Code.method (.path ["args"]) "list" [.string name]).eval ctx env =
          pure (.sliceOption (some items)) := by
        rw [eval_read hargs, ← hlist]
        rfl
      have hvalue := eval_method hread "unwrap_or_default"
      exact eval_method (d := .slice items) hvalue "to_vec"

end Kinds

/-! ## Members of a struct -/

theorem lookup_zip_map {α β : Type} {key : α → String} (value : α → β) {items : List α}
    (hkeys : (items.map key).Nodup) {a : α} (ha : a ∈ items) :
    ((items.map key).zip (items.map value)).lookup (key a) = some (value a) := by
  induction items with
  | nil => exact absurd ha List.not_mem_nil
  | cons b items ih =>
      rw [List.map_cons, List.nodup_cons] at hkeys
      rw [List.map_cons, List.map_cons, List.zip_cons_cons, List.lookup_cons]
      by_cases hab : key a = key b
      · rcases List.mem_cons.mp ha with rfl | hitems
        · simp
        · exact absurd (hab ▸ List.mem_map_of_mem hitems) hkeys.1
      · have hitems : a ∈ items := by
          rcases List.mem_cons.mp ha with rfl | hitems
          · exact absurd rfl hab
          · exact hitems
        have hkey : (key a == key b) = false := beq_eq_false_iff_ne.mpr hab
        rw [hkey]
        exact ih hkeys.2 hitems

/-- No two names have one identifier: a raw identifier holds a character that no name has. -/
theorem fieldIdent?_injective {name name' ident : String} (hname : isFieldName name = true)
    (hname' : isFieldName name' = true) (h : fieldIdent? name = some ident)
    (h' : fieldIdent? name' = some ident) : name = name' := by
  have hraw : ∀ {text : String}, isFieldName ("r#" ++ text) = false := by
    intro text
    by_contra hfield
    have hword := isWord_fieldName (Bool.not_eq_false _ ▸ hfield)
    have hpart := hword.parts '#' (by simp)
    exact absurd hpart (by decide)
  unfold fieldIdent? at h h'
  split_ifs at h h'
  · obtain rfl := Option.some.inj h
    simpa using (Option.some.inj h').symm
  · obtain rfl := Option.some.inj h
    obtain rfl := Option.some.inj h'
    rw [hraw] at hname'
    cases hname'
  · obtain rfl := Option.some.inj h
    obtain rfl := Option.some.inj h'
    rw [hraw] at hname
    cases hname
  · exact (Option.some.inj h).trans (Option.some.inj h').symm

theorem Member.of_eq_ok {f : Field} {member : Member} (h : Member.of f = .ok member) :
    member.field = f ∧ fieldIdent? f.name = some member.ident := by
  unfold Member.of at h
  split at h
  · rename_i ident hident
    obtain rfl := Except.ok.inj h
    exact ⟨rfl, hident⟩
  · cases h

/-- A module for a schema, with a member for each field. -/
structure Module.Covers (m : Module) (s : Schema) : Prop where
  fields : m.declared.map Member.field = s.fields
  idents : ∀ member ∈ m.declared, fieldIdent? member.field.name = some member.ident

namespace Module

variable {m : Module} {s : Schema}

theorem covers_of_eq_ok {structName : String} (h : Module.of s structName = .ok m) :
    m.structName = structName ∧ m.Covers s := by
  unfold Module.of at h
  split at h
  · cases hdeclared : s.fields.mapM Member.of with
    | error e => simp [hdeclared, bind, Except.bind] at h
    | ok declared =>
        obtain rfl : (⟨s, structName, declared⟩ : Module) = m := by
          simpa [hdeclared, bind, Except.bind, pure, Except.pure] using h
        refine ⟨rfl, map_of_mapM (fun f member hof => (Member.of_eq_ok hof).1) hdeclared, ?_⟩
        intro member hmember
        obtain ⟨f, -, hof⟩ := exists_of_mem_mapM hdeclared member hmember
        obtain ⟨rfl, hident⟩ := Member.of_eq_ok hof
        exact hident
  · cases h

theorem Covers.perm_sorted (h : m.Covers s) : (m.sorted.map Member.field).Perm s.fields := by
  rw [← h.fields]
  exact (List.mergeSort_perm _ _).map _

theorem Covers.field_mem (h : m.Covers s) {member : Member} (hmember : member ∈ m.declared) :
    member.field ∈ s.fields := by
  rw [← h.fields]
  exact List.mem_map_of_mem hmember

theorem Covers.nodup_names (h : m.Covers s) :
    (m.sorted.map fun member => member.field.name).Nodup := by
  have hperm := h.perm_sorted.map Field.name
  rw [List.map_map] at hperm
  have hnames : (s.fields.map Field.name).Nodup :=
    List.pairwise_map.mpr (s.pairwise_compatible.imp Field.Compatible.name)
  exact hperm.nodup_iff.mpr hnames

/-- The names of the sorted fields increase. -/
theorem Covers.pairwise_sorted (h : m.Covers s) :
    (m.sorted.map fun member => member.field.name).Pairwise (· < ·) := by
  have htrans : ∀ a b c : Member, decide (a.field.name ≤ b.field.name) = true →
      decide (b.field.name ≤ c.field.name) = true →
        decide (a.field.name ≤ c.field.name) = true := by
    intro a b c hab hbc
    exact decide_eq_true (le_trans (of_decide_eq_true hab) (of_decide_eq_true hbc))
  have htotal : ∀ a b : Member, (decide (a.field.name ≤ b.field.name) ||
      decide (b.field.name ≤ a.field.name)) = true := by
    intro a b
    simpa using le_total a.field.name b.field.name
  have hle : m.sorted.Pairwise fun a b => a.field.name ≤ b.field.name :=
    (List.pairwise_mergeSort htrans htotal m.declared).imp of_decide_eq_true
  have hne := List.pairwise_map.mp h.nodup_names
  refine List.pairwise_map.mpr ((hle.and hne).imp ?_)
  rintro a b ⟨hab, hab'⟩
  exact lt_of_le_of_ne hab hab'

theorem Covers.nodup_idents (h : m.Covers s) : (m.sorted.map Member.ident).Nodup := by
  have hname : ∀ {member}, member ∈ m.declared → isFieldName member.field.name = true := by
    intro member hmember
    exact (s.wellFormed (h.field_mem hmember)).name
  refine List.pairwise_map.mpr ((List.pairwise_map.mp h.nodup_names).imp_of_mem ?_)
  intro a b ha hb hab hident
  have ha := List.mem_mergeSort.mp ha
  have hb := List.mem_mergeSort.mp hb
  apply hab
  refine fieldIdent?_injective (hname ha) (hname hb) (h.idents a ha) ?_
  rw [hident]
  exact h.idents b hb

/-- The struct with given values in its fields. -/
def record (m : Module) (value : Field → Value) : Datum :=
  .record (m.sorted.map Member.ident) (m.sorted.map fun member => .ofValue (value member.field))

theorem Covers.field?_record (h : m.Covers s) (value : Field → Value) {member : Member}
    (hmember : member ∈ m.declared) :
    (m.record value).field? member.ident = some (.ofValue (value member.field)) :=
  lookup_zip_map (fun member : Member => Datum.ofValue (value member.field)) h.nodup_idents
    (List.mem_mergeSort.mpr hmember)

end Module

/-! ## Evaluation of members -/

section Evaluation

variable {ctx : Context} {env : List (String × Datum)} {m : Module} {s : Schema}
  {value : Field → Value} {member : Member}

theorem eval_of? {name : String} (h : m.Covers s) (hmember : member ∈ m.declared)
    (hname : env.lookup name = some (m.record value)) :
    (member.of? name).eval ctx env = pure (.ofValue (value member.field)) := by
  have hpath : ctx.path env [name] = pure (m.record value) := by simp [Context.path, hname]
  simp [Member.of?, Code.eval, hpath, h.field?_record value hmember, Run.ofOption]

theorem eval_comparison {value' : Field → Value} (h : m.Covers s)
    (hmember : member ∈ m.declared) (hvalue : member.field.kind.Admits (value member.field))
    (hvalue' : member.field.kind.Admits (value' member.field))
    (hself : env.lookup "self" = some (m.record value))
    (hother : env.lookup "other" = some (m.record value')) :
    member.comparison.eval ctx env =
      pure (.bool (value member.field == value' member.field)) := by
  rw [Member.comparison, Code.eval, eval_of? h hmember hself, eval_of? h hmember hother]
  simp [equal?_ofValue hvalue hvalue', Run.ofOption]

section Write

variable {data : List Code} {vs : List Datum} {template : String} {written : List Char}

theorem eval_write (hf : env.lookup "f" = some .formatter)
    (hdata : Code.evalAll ctx env data = pure vs)
    (hformat : Datum.format? template.toList vs = some written) (text : String) :
    (Code.bang "write" (.path ["f"] :: .string template :: data)).eval ctx env text =
      .ok (.ok .unit) (text ++ String.ofList written) := by
  have hpath : ctx.path env ["f"] = pure .formatter := by simp [Context.path, hf]
  have hall : Code.evalAll ctx env (.path ["f"] :: .string template :: data) =
      pure (.formatter :: .str template :: vs) := by
    simp [Code.evalAll, Code.eval, hpath, hdata]
  rw [Code.eval, hall, pure_bind, Datum.expand, hformat]
  rfl

theorem runBody_write {result : Code} (hf : env.lookup "f" = some .formatter)
    (hdata : Code.evalAll ctx env data = pure vs)
    (hformat : Datum.format? template.toList vs = some written) (statements : List Statement)
    (text : String) :
    runBody ctx result env (writeStatement template data :: statements) text =
      runBody ctx result env statements (text ++ String.ofList written) := by
  have hrun : (Code.attempt (.bang "write" (.path ["f"] :: .string template :: data))).eval
      ctx env text = .ok .unit (text ++ String.ofList written) := by
    rw [Code.eval, Run.bind_of_ok (eval_write hf hdata hformat text)]
    rfl
  rw [writeStatement, runBody, Run.bind_of_ok hrun]

end Write

theorem ne_brace_of_isWordPart {c : Char} (h : isWordPart c = true) :
    c ≠ '\x7b' ∧ c ≠ '\x7d' := by
  constructor <;> rintro rfl <;> revert h <;> decide

theorem format?_shown {f : Field} {v : Value} (hname : isFieldName f.name = true)
    (hvalue : f.kind.Admits v) :
    Datum.format? (" " ++ f.name ++ "=" ++ (showing f.kind).source).toList [.ofValue v] =
      some (f.shown v).toList := by
  have hblank : " ".toList = [' '] := String.toList_ofList
  have hsign : "=".toList = ['='] := String.toList_ofList
  have hplain : ∀ c ∈ (" " ++ f.name ++ "=").toList, c ≠ '\x7b' ∧ c ≠ '\x7d' := by
    intro c hc
    rw [String.toList_append, String.toList_append, hblank, hsign, List.mem_append,
      List.mem_append, List.mem_singleton, List.mem_singleton] at hc
    rcases hc with (rfl | hc) | rfl
    · decide
    · exact ne_brace_of_isWordPart ((isWord_fieldName hname).parts c hc)
    · decide
  have hshown : (f.shown v).toList = (" " ++ f.name ++ "=").toList ++ v.render.toList :=
    String.toList_append
  rw [String.toList_append, format?_append hplain, format?_show hvalue, hshown, Option.map_some]

/-- The members are written one after the other. -/
theorem runBody_showStatements {result : Code} {members : List Member} (h : m.Covers s)
    (hmembers : ∀ member ∈ members, member ∈ m.declared)
    (hvalue : ∀ f ∈ s.fields, f.kind.Admits (value f))
    (hself : env.lookup "self" = some (m.record value))
    (hf : env.lookup "f" = some .formatter) (text : String) :
    runBody ctx result env (members.map Member.showStatement) text =
      result.eval ctx env (text ++ String.join (members.map fun member =>
        member.field.shown (value member.field))) := by
  induction members generalizing text with
  | nil => simp [runBody]
  | cons member members ih =>
      rw [List.forall_mem_cons] at hmembers
      have hfield := h.field_mem hmembers.1
      have hdata : Code.evalAll ctx env [member.of? "self"] =
          pure [.ofValue (value member.field)] := by
        simp [Code.evalAll, eval_of? h hmembers.1 hself]
      have hformat := format?_shown (s.wellFormed hfield).name (hvalue _ hfield)
      rw [List.map_cons, Member.showStatement, runBody_write hf hdata hformat, ih hmembers.2,
        String.ofList_toList, List.map_cons, String.join_cons, String.append_assoc]

end Evaluation

end CommandSchema.Generated
