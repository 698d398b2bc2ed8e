import CommandSchema.Schema

/-!
# Consistent lists of fields

A list of fields has no problems exactly if every field is well formed by itself
and each field leaves room for the fields after it.  The validation carries what
the earlier fields have taken; here that state is traded for a relation between
any two fields in declaration order.
-/

namespace CommandSchema

/-- The rules that a field keeps or breaks whatever stands beside it. -/
structure Field.WellFormed (f : Field) : Prop where
  name : isFieldName f.name = true
  option_form : f.kind.isPositional = false → f.short ≠ none ∨ f.long ≠ none
  positional_form : f.kind.isPositional = true → f.short = none ∧ f.long = none
  short : ∀ c, f.short = some c → isShortName c = true
  long : ∀ l, f.long = some l → isLongName l = true
  default : ∀ v, f.default = some v →
    f.required = false ∧ f.kind.defaultTypeName? = some v.typeName

/-- What a field allows of a field `g` that is declared after it. -/
structure Field.Compatible (f g : Field) : Prop where
  name : f.name ≠ g.name
  short : ∀ c, f.short = some c → g.short ≠ some c
  long : ∀ l, f.long = some l → g.long ≠ some l
  positional : f.kind.isPositional = true → ∀ t, g.kind ≠ .positional t
  positionalList : f.kind = .positionalList → g.kind ≠ .positionalList

/-! ## The problems of one field -/

namespace Taken

theorem problems_eq_nil_iff (t : Taken) (f : Field) :
    t.problems f = [] ↔
      t.nameProblems f = [] ∧ f.formProblems = [] ∧ t.shortProblems f = [] ∧
        t.longProblems f = [] ∧ t.orderProblems f = [] ∧ f.defaultProblem? = none := by
  simp [problems]

theorem nameProblems_eq_nil_iff (t : Taken) (f : Field) :
    t.nameProblems f = [] ↔ isFieldName f.name = true ∧ f.name ∉ t.names := by
  unfold nameProblems
  cases isFieldName f.name <;> simp

theorem shortProblems_eq_nil_iff (t : Taken) (f : Field) :
    t.shortProblems f = [] ↔
      ∀ c, f.short = some c → isShortName c = true ∧ c ∉ t.shorts := by
  unfold shortProblems
  cases f.short with
  | none => simp
  | some c => cases hc : isShortName c <;> simp [hc]

theorem longProblems_eq_nil_iff (t : Taken) (f : Field) :
    t.longProblems f = [] ↔
      ∀ l, f.long = some l → isLongName l = true ∧ l ∉ t.longs := by
  unfold longProblems
  cases f.long with
  | none => simp
  | some l => cases hl : isLongName l <;> simp [hl]

theorem orderProblems_eq_nil_iff (t : Taken) (f : Field) :
    t.orderProblems f = [] ↔
      (∀ type, f.kind = .positional type →
          t.positional = false ∧ t.positionalList = false) ∧
        (f.kind = .positionalList → t.positionalList = false) := by
  unfold orderProblems
  cases f.kind <;> cases t.positional <;> cases t.positionalList <;> simp

end Taken

theorem Field.formProblems_eq_nil_iff (f : Field) :
    f.formProblems = [] ↔
      (f.kind.isPositional = false → f.short ≠ none ∨ f.long ≠ none) ∧
        (f.kind.isPositional = true → f.short = none ∧ f.long = none) := by
  unfold Field.formProblems
  cases f.kind.isPositional <;> cases f.short <;> cases f.long <;> simp

theorem Field.defaultProblem?_eq_none_iff (f : Field) :
    f.defaultProblem? = none ↔
      ∀ v, f.default = some v →
        f.required = false ∧ f.kind.defaultTypeName? = some v.typeName := by
  unfold Field.defaultProblem?
  cases f.default with
  | none => simp
  | some v =>
      cases f.required <;> cases hk : f.kind.defaultTypeName? <;> simp [eq_comm]

theorem Taken.nothing_problems_eq_nil_iff (f : Field) :
    Taken.nothing.problems f = [] ↔ f.WellFormed := by
  rw [problems_eq_nil_iff, nameProblems_eq_nil_iff, f.formProblems_eq_nil_iff,
    shortProblems_eq_nil_iff, longProblems_eq_nil_iff, orderProblems_eq_nil_iff,
    f.defaultProblem?_eq_none_iff]
  constructor
  · rintro ⟨⟨hname, -⟩, ⟨hoption, hpositional⟩, hshort, hlong, -, hdefault⟩
    exact ⟨hname, hoption, hpositional, fun c hc => (hshort c hc).1,
      fun l hl => (hlong l hl).1, hdefault⟩
  · intro h
    refine ⟨⟨h.name, ?_⟩, ⟨h.option_form, h.positional_form⟩, ?_, ?_, ?_, h.default⟩
    · simp [nothing]
    · exact fun c hc => ⟨h.short c hc, by simp [nothing]⟩
    · exact fun l hl => ⟨h.long l hl, by simp [nothing]⟩
    · simp [nothing]

/-! ## One field after another -/

/-- A field that is declared as well adds exactly the demand that it leaves
room for `g`. -/
theorem Taken.insert_problems_eq_nil_iff (t : Taken) (f g : Field) :
    (t.insert f).problems g = [] ↔ t.problems g = [] ∧ f.Compatible g := by
  simp only [problems_eq_nil_iff, nameProblems_eq_nil_iff, shortProblems_eq_nil_iff,
    longProblems_eq_nil_iff, orderProblems_eq_nil_iff]
  constructor
  · rintro ⟨⟨hname, hfresh⟩, hform, hshort, hlong, ⟨hsingle, hlist⟩, hdefault⟩
    simp only [insert, List.mem_cons, List.mem_append, Option.mem_toList, not_or,
      Bool.or_eq_false_iff] at hfresh hshort hlong hsingle hlist
    refine ⟨⟨⟨hname, hfresh.2⟩, hform, fun c hc => ⟨(hshort c hc).1, (hshort c hc).2.2⟩,
      fun l hl => ⟨(hlong l hl).1, (hlong l hl).2.2⟩,
      ⟨fun type hk => ⟨(hsingle type hk).1.1, (hsingle type hk).2.1⟩,
        fun hk => (hlist hk).1⟩, hdefault⟩, ?_⟩
    refine ⟨fun h => hfresh.1 h.symm, fun c hf hg => (hshort c hg).2.1 hf,
      fun l hf hg => (hlong l hg).2.1 hf, fun hpos type hk => ?_, fun hf hg => ?_⟩
    · have hfree := hsingle type hk
      cases hkind : f.kind <;> simp [hkind, FieldKind.isPositional] at hpos hfree
    · simpa [hf] using (hlist hg).2
  · rintro ⟨⟨⟨hname, hfresh⟩, hform, hshort, hlong, ⟨hsingle, hlist⟩, hdefault⟩, hfg⟩
    refine ⟨⟨hname, ?_⟩, hform, fun c hc => ⟨(hshort c hc).1, ?_⟩,
      fun l hl => ⟨(hlong l hl).1, ?_⟩, ⟨fun type hk => ?_, fun hk => ?_⟩, hdefault⟩
    · simpa [insert] using ⟨fun h => hfg.name h.symm, hfresh⟩
    · simpa [insert] using ⟨fun h => hfg.short c h hc, (hshort c hc).2⟩
    · simpa [insert] using ⟨fun h => hfg.long l h hl, (hlong l hl).2⟩
    · have hfree := hsingle type hk
      have hnot := hfg.positional
      cases hkind : f.kind <;> simp [hkind, FieldKind.isPositional, hk] at hnot <;>
        simp [insert, hkind, hfree]
    · have hnot := hfg.positionalList
      cases hkind : f.kind <;> simp [hkind, hk] at hnot <;>
        simp [insert, hkind, hlist hk]

theorem problemsAfter_eq_nil_iff (t : Taken) (fields : List Field) :
    problemsAfter t fields = [] ↔
      (∀ f ∈ fields, t.problems f = []) ∧ fields.Pairwise Field.Compatible := by
  induction fields generalizing t with
  | nil => simp [problemsAfter]
  | cons f fs ih =>
      simp only [problemsAfter, List.append_eq_nil_iff, ih, List.forall_mem_cons,
        List.pairwise_cons, Taken.insert_problems_eq_nil_iff]
      constructor
      · rintro ⟨hf, hfs, hpairs⟩
        exact ⟨⟨hf, fun g hg => (hfs g hg).1⟩, fun g hg => (hfs g hg).2, hpairs⟩
      · rintro ⟨⟨hf, hfs⟩, hcompatible, hpairs⟩
        exact ⟨hf, fun g hg => ⟨hfs g hg, hcompatible g hg⟩, hpairs⟩

/-- A list of fields has no problems exactly if its fields are well formed and
pairwise compatible. -/
theorem problems_eq_nil_iff (fields : List Field) :
    problems fields = [] ↔
      (∀ f ∈ fields, f.WellFormed) ∧ fields.Pairwise Field.Compatible := by
  simp only [problems, problemsAfter_eq_nil_iff, Taken.nothing_problems_eq_nil_iff]

namespace Schema

theorem wellFormed (s : Schema) {f : Field} (hf : f ∈ s.fields) : f.WellFormed :=
  ((problems_eq_nil_iff s.fields).mp s.consistent).1 f hf

theorem pairwise_compatible (s : Schema) : s.fields.Pairwise Field.Compatible :=
  ((problems_eq_nil_iff s.fields).mp s.consistent).2

/-- The parts of a schema build it again. -/
theorem build_self (s : Schema) : build s.name s.description s.fields = .ok s := by
  unfold build
  rw [dif_pos s.name_not_blank]
  split
  · rfl
  · rename_i hp
    rw [s.consistent] at hp
    cases hp

theorem parts_of_build {name : String} {description : Option String} {fields : List Field}
    {s : Schema} (h : build name description fields = .ok s) :
    s.name = name ∧ s.description = description ∧ s.fields = fields := by
  unfold build at h
  split at h
  · split at h
    · obtain rfl := Except.ok.inj h
      exact ⟨rfl, rfl, rfl⟩
    · cases h
  · cases h

end Schema

end CommandSchema
