import CommandSchema.Proofs.Schema.Validation
import Mathlib.Data.List.Induction

/-!
# The report of a validation

Validation goes on after a problem, so its report holds every problem of every field, field by
field in declaration order.  What is reported of a field is told here by the field and the fields
before it.  Counts over whole lists follow from it, one field after another: of the fields that
share a name, a form or a place, all but the first are reported.
-/

namespace CommandSchema

/-- Whether fields of this kind take the first positional token. -/
def FieldKind.takesFirst : FieldKind → Bool
  | positional _ => true
  | _ => false

/-- Whether fields of this kind take the positional tokens that are left. -/
def FieldKind.takesRest : FieldKind → Bool
  | positionalList => true
  | _ => false

/-- What is reported of a field that is declared after others. -/
inductive Field.Reported (before : List Field) (f : Field) : SchemaProblem → Prop
  | invalidFieldName (invalid : ¬IsIdentifier f.name.toList) :
      Reported before f (.invalidFieldName f.name)
  | duplicateFieldName (valid : IsIdentifier f.name.toList)
      (taken : ∃ g ∈ before, g.name = f.name) : Reported before f (.duplicateFieldName f.name)
  | missingOptionName (option : f.kind.isPositional = false) (short : f.short = none)
      (long : f.long = none) : Reported before f (.missingOptionName f.name)
  | positionalWithOptionName (positional : f.kind.isPositional = true)
      (form : f.short ≠ none ∨ f.long ≠ none) :
      Reported before f (.positionalWithOptionName f.name)
  | invalidShortOption {c : Char} (short : f.short = some c) (invalid : c ∉ alphanumerics) :
      Reported before f (.invalidShortOption c)
  | duplicateShortOption {c : Char} (short : f.short = some c) (valid : c ∈ alphanumerics)
      (taken : ∃ g ∈ before, g.short = some c) : Reported before f (.duplicateShortOption c)
  | invalidLongOption {l : String} (long : f.long = some l) (invalid : ¬IsDashedWords l.toList) :
      Reported before f (.invalidLongOption l)
  | duplicateLongOption {l : String} (long : f.long = some l) (valid : IsDashedWords l.toList)
      (taken : ∃ g ∈ before, g.long = some l) : Reported before f (.duplicateLongOption l)
  | multiplePositionals (first : f.kind.takesFirst = true)
      (taken : ∃ g ∈ before, g.kind.takesFirst = true) :
      Reported before f (.multiplePositionals f.name)
  | positionalOrder (first : f.kind.takesFirst = true)
      (free : ∀ g ∈ before, g.kind.takesFirst = false)
      (behind : ∃ g ∈ before, g.kind.takesRest = true) :
      Reported before f (.positionalOrder f.name)
  | multiplePositionalLists (rest : f.kind.takesRest = true)
      (taken : ∃ g ∈ before, g.kind.takesRest = true) :
      Reported before f (.multiplePositionalLists f.name)
  /-- This comes before what else may be wrong with a default. -/
  | requiredWithDefault (required : f.required = true) (default : f.default ≠ none) :
      Reported before f (.requiredWithDefault f.name)
  | defaultNotAllowed (optional : f.required = false) (switch : f.kind.isSwitch = true)
      (default : f.default ≠ none) : Reported before f (.defaultNotAllowed f.name)
  | defaultTypeMismatch {expected : String} {v : Value} (optional : f.required = false)
      (default : f.default = some v) (typed : f.kind.defaultTypeName? = some expected)
      (mismatch : ¬f.kind.Admits v) :
      Reported before f (.defaultTypeMismatch f.name expected v.typeName)

/-- The place of a problem among the problems of one field. -/
def SchemaProblem.stage : SchemaProblem → ℕ
  | emptySchemaName => 0
  | invalidFieldName _ | duplicateFieldName _ => 1
  | missingOptionName _ | positionalWithOptionName _ => 2
  | invalidShortOption _ | duplicateShortOption _ => 3
  | invalidLongOption _ | duplicateLongOption _ => 4
  | multiplePositionals _ | positionalOrder _ | multiplePositionalLists _ => 5
  | requiredWithDefault _ | defaultNotAllowed _ | defaultTypeMismatch .. => 6

/-- Problems in the order in which one field is checked, at most one of each check. -/
def Staged (own : List SchemaProblem) : Prop :=
  own.Pairwise fun p q => p.stage < q.stage

/-! ## The problems of one field -/

namespace Taken

variable {t : Taken} {f : Field} {p : SchemaProblem}

theorem mem_nameProblems : p ∈ t.nameProblems f ↔
    (¬IsIdentifier f.name.toList ∧ p = .invalidFieldName f.name) ∨
      (IsIdentifier f.name.toList ∧ f.name ∈ t.names ∧ p = .duplicateFieldName f.name) := by
  rw [← isFieldName_iff, nameProblems]
  cases isFieldName f.name <;> by_cases htaken : f.name ∈ t.names <;> simp [htaken]

theorem mem_formProblems : p ∈ f.formProblems ↔
    (f.kind.isPositional = false ∧ f.short = none ∧ f.long = none ∧
        p = .missingOptionName f.name) ∨
      (f.kind.isPositional = true ∧ (f.short ≠ none ∨ f.long ≠ none) ∧
        p = .positionalWithOptionName f.name) := by
  unfold Field.formProblems
  cases f.kind.isPositional <;> cases f.short <;> cases f.long <;> simp

theorem mem_shortProblems : p ∈ t.shortProblems f ↔ ∃ c, f.short = some c ∧
    ((c ∉ alphanumerics ∧ p = .invalidShortOption c) ∨
      (c ∈ alphanumerics ∧ c ∈ t.shorts ∧ p = .duplicateShortOption c)) := by
  unfold shortProblems
  cases f.short with
  | none => simp
  | some c =>
      have hvalid : c ∈ alphanumerics ↔ isShortName c = true := (isAlphanum_iff c).symm
      simp only [hvalid, Option.some.injEq, exists_eq_left']
      cases isShortName c <;> by_cases htaken : c ∈ t.shorts <;> simp [htaken]

theorem mem_longProblems : p ∈ t.longProblems f ↔ ∃ l, f.long = some l ∧
    ((¬IsDashedWords l.toList ∧ p = .invalidLongOption l) ∨
      (IsDashedWords l.toList ∧ l ∈ t.longs ∧ p = .duplicateLongOption l)) := by
  unfold longProblems
  cases f.long with
  | none => simp
  | some l =>
      simp only [← isLongName_iff, Option.some.injEq, exists_eq_left']
      cases isLongName l <;> by_cases htaken : l ∈ t.longs <;> simp [htaken]

theorem mem_orderProblems : p ∈ t.orderProblems f ↔
    (f.kind.takesFirst = true ∧ t.positional = true ∧ p = .multiplePositionals f.name) ∨
      (f.kind.takesFirst = true ∧ t.positional = false ∧ t.positionalList = true ∧
        p = .positionalOrder f.name) ∨
      (f.kind.takesRest = true ∧ t.positionalList = true ∧
        p = .multiplePositionalLists f.name) := by
  unfold orderProblems
  cases f.kind <;> cases t.positional <;> cases t.positionalList <;>
    simp [FieldKind.takesFirst, FieldKind.takesRest]

end Taken

theorem defaultTypeName?_eq_none_iff (kind : FieldKind) :
    kind.defaultTypeName? = none ↔ kind.isSwitch = true := by
  cases kind <;> simp [FieldKind.defaultTypeName?, FieldKind.isSwitch]

theorem Field.defaultProblem?_eq_some_iff {f : Field} {p : SchemaProblem} :
    f.defaultProblem? = some p ↔
      (f.required = true ∧ f.default ≠ none ∧ p = .requiredWithDefault f.name) ∨
      (f.required = false ∧ f.kind.isSwitch = true ∧ f.default ≠ none ∧
        p = .defaultNotAllowed f.name) ∨
      (f.required = false ∧ ∃ v expected, f.default = some v ∧
        f.kind.defaultTypeName? = some expected ∧ ¬f.kind.Admits v ∧
        p = .defaultTypeMismatch f.name expected v.typeName) := by
  unfold Field.defaultProblem?
  cases f.default with
  | none => simp
  | some v =>
      cases f.required with
      | true => simpa using eq_comm
      | false =>
          cases htype : f.kind.defaultTypeName? with
          | none =>
              have hswitch := (defaultTypeName?_eq_none_iff f.kind).mp htype
              simp [hswitch, eq_comm]
          | some expected =>
              have hswitch : f.kind.isSwitch = false := by
                by_contra hswitch
                rw [(defaultTypeName?_eq_none_iff f.kind).mpr (by simpa using hswitch)] at htype
                cases htype
              have hadmits : v.typeName = expected ↔ f.kind.Admits v := by
                have hiff := defaultTypeName?_eq_some_iff f.kind v
                simpa [htype, hswitch, eq_comm] using hiff
              by_cases hv : f.kind.Admits v
              · simp [hswitch, hadmits, hv]
              · simp [hswitch, hadmits, hv, eq_comm]

/-- What the fields of a list have taken together. -/
structure Taken.By (t : Taken) (before : List Field) : Prop where
  names : ∀ n, n ∈ t.names ↔ ∃ g ∈ before, g.name = n
  shorts : ∀ c, c ∈ t.shorts ↔ ∃ g ∈ before, g.short = some c
  longs : ∀ l, l ∈ t.longs ↔ ∃ g ∈ before, g.long = some l
  positional : t.positional = true ↔ ∃ g ∈ before, g.kind.takesFirst = true
  positionalList : t.positionalList = true ↔ ∃ g ∈ before, g.kind.takesRest = true

theorem Taken.by_nothing : Taken.nothing.By [] := by
  constructor <;> simp [Taken.nothing]

theorem Taken.positional_insert (t : Taken) (f : Field) :
    (t.insert f).positional = (t.positional || f.kind.takesFirst) := by
  rw [insert]
  cases f.kind <;> rfl

theorem Taken.positionalList_insert (t : Taken) (f : Field) :
    (t.insert f).positionalList = (t.positionalList || f.kind.takesRest) := by
  rw [insert]
  cases f.kind <;> rfl

theorem Taken.By.insert {t : Taken} {before : List Field} (h : t.By before) (f : Field) :
    (t.insert f).By (before ++ [f]) where
  names n := by simp [Taken.insert, h.names, or_comm, eq_comm]
  shorts c := by simp [Taken.insert, h.shorts, or_comm]
  longs l := by simp [Taken.insert, h.longs, or_comm]
  positional := by simp [t.positional_insert, h.positional, or_and_right, exists_or]
  positionalList := by simp [t.positionalList_insert, h.positionalList, or_and_right, exists_or]

theorem Taken.by_foldl (before : List Field) :
    (before.foldl Taken.insert Taken.nothing).By before := by
  induction before using List.reverseRecOn with
  | nil => exact Taken.by_nothing
  | append_singleton before f ih =>
      rw [List.foldl_append]
      exact ih.insert f

/-- The problems of a field are those that are reported of it. -/
theorem Taken.By.mem_problems_iff {t : Taken} {before : List Field} (h : t.By before) {f : Field}
    {p : SchemaProblem} : p ∈ t.problems f ↔ f.Reported before p := by
  have hfree : t.positional = false ↔ ∀ g ∈ before, g.kind.takesFirst = false := by
    rw [← Bool.not_eq_true, h.positional]
    simp
  rw [Taken.problems]
  simp only [List.mem_append, Option.mem_toList, Taken.mem_nameProblems,
    Taken.mem_formProblems, Taken.mem_shortProblems, Taken.mem_longProblems,
    Taken.mem_orderProblems, Field.defaultProblem?_eq_some_iff, h.names, h.shorts, h.longs,
    h.positional, h.positionalList, hfree]
  constructor
  · rintro (((((h | h) | h) | h) | h) | h)
    · rcases h with ⟨invalid, rfl⟩ | ⟨valid, taken, rfl⟩
      · exact .invalidFieldName invalid
      · exact .duplicateFieldName valid taken
    · rcases h with ⟨option, short, long, rfl⟩ | ⟨positional, form, rfl⟩
      · exact .missingOptionName option short long
      · exact .positionalWithOptionName positional form
    · obtain ⟨c, short, ⟨invalid, rfl⟩ | ⟨valid, taken, rfl⟩⟩ := h
      · exact .invalidShortOption short invalid
      · exact .duplicateShortOption short valid taken
    · obtain ⟨l, long, ⟨invalid, rfl⟩ | ⟨valid, taken, rfl⟩⟩ := h
      · exact .invalidLongOption long invalid
      · exact .duplicateLongOption long valid taken
    · rcases h with ⟨first, taken, rfl⟩ | ⟨first, free, behind, rfl⟩ | ⟨rest, taken, rfl⟩
      · exact .multiplePositionals first taken
      · exact .positionalOrder first free behind
      · exact .multiplePositionalLists rest taken
    · rcases h with ⟨required, default, rfl⟩ | ⟨optional, switch, default, rfl⟩ |
        ⟨optional, v, expected, default, typed, mismatch, rfl⟩
      · exact .requiredWithDefault required default
      · exact .defaultNotAllowed optional switch default
      · exact .defaultTypeMismatch optional default typed mismatch
  · intro h
    cases h with
    | invalidFieldName invalid => simp [invalid]
    | duplicateFieldName valid taken => simp [valid, taken]
    | missingOptionName option short long => simp [option, short, long]
    | positionalWithOptionName positional form => simp [positional, form]
    | invalidShortOption short invalid => simp [short, invalid]
    | duplicateShortOption short valid taken => simp [short, valid, taken]
    | invalidLongOption long invalid => simp [long, invalid]
    | duplicateLongOption long valid taken => simp [long, valid, taken]
    | multiplePositionals first taken => simp [first, taken]
    | positionalOrder first free behind => simpa [first, behind] using free
    | multiplePositionalLists rest taken => simp [rest, taken]
    | requiredWithDefault required default => simp [required, default]
    | defaultNotAllowed optional switch default => simp [optional, switch, default]
    | defaultTypeMismatch optional default typed mismatch =>
        simp [optional, default, typed, mismatch]

/-- A field goes through the checks in their order, with one problem at most in each. -/
theorem Taken.staged_problems (t : Taken) (f : Field) : Staged (t.problems f) := by
  have hname : ((t.nameProblems f).map SchemaProblem.stage).Sublist [1] := by
    unfold Taken.nameProblems
    split_ifs <;> simp [SchemaProblem.stage]
  have hform : (f.formProblems.map SchemaProblem.stage).Sublist [2] := by
    unfold Field.formProblems
    split_ifs <;> simp [SchemaProblem.stage]
  have hshort : ((t.shortProblems f).map SchemaProblem.stage).Sublist [3] := by
    unfold Taken.shortProblems
    cases f.short with
    | none => simp
    | some c =>
        dsimp only
        split_ifs <;> simp [SchemaProblem.stage]
  have hlong : ((t.longProblems f).map SchemaProblem.stage).Sublist [4] := by
    unfold Taken.longProblems
    cases f.long with
    | none => simp
    | some l =>
        dsimp only
        split_ifs <;> simp [SchemaProblem.stage]
  have horder : ((t.orderProblems f).map SchemaProblem.stage).Sublist [5] := by
    unfold Taken.orderProblems
    cases f.kind <;> cases t.positional <;> cases t.positionalList <;>
      simp [SchemaProblem.stage]
  have hdefault : (f.defaultProblem?.toList.map SchemaProblem.stage).Sublist [6] := by
    cases hp : f.defaultProblem? with
    | none => simp
    | some p =>
        have hstage : p.stage = 6 := by
          rcases Field.defaultProblem?_eq_some_iff.mp hp with ⟨-, -, rfl⟩ | ⟨-, -, -, rfl⟩ |
            ⟨-, v, expected, -, -, -, rfl⟩ <;> rfl
        simp [hstage]
  have hstages : ((t.problems f).map SchemaProblem.stage).Sublist [1, 2, 3, 4, 5, 6] := by
    simp only [Taken.problems, List.map_append]
    exact ((((hname.append hform).append hshort).append hlong).append horder).append hdefault
  have hsorted : [1, 2, 3, 4, 5, 6].Pairwise fun a b : ℕ => a < b := by decide
  exact List.pairwise_map.mp (hsorted.sublist hstages)

/-! ## One field after another -/

theorem problemsAfter_append (t : Taken) (before after : List Field) :
    problemsAfter t (before ++ after) =
      problemsAfter t before ++ problemsAfter (before.foldl Taken.insert t) after := by
  induction before generalizing t with
  | nil => rfl
  | cons f before ih => rw [List.cons_append, problemsAfter, ih, problemsAfter, List.append_assoc,
      List.foldl_cons]

/-- The report of a list starts with the report of its front. -/
theorem problems_prefix (before after : List Field) :
    problems before <+: problems (before ++ after) := by
  rw [problems, problems, problemsAfter_append]
  exact List.prefix_append _ _

/-- One more field adds what is reported of it. -/
theorem exists_own_problems (before : List Field) (f : Field) :
    ∃ own, problems (before ++ [f]) = problems before ++ own ∧ Staged own ∧
      ∀ p, p ∈ own ↔ f.Reported before p := by
  refine ⟨(before.foldl Taken.insert Taken.nothing).problems f, ?_, Taken.staged_problems _ f,
    fun p => (Taken.by_foldl before).mem_problems_iff⟩
  rw [problems, problemsAfter_append, problemsAfter, problemsAfter, List.append_nil, problems]

section OneStage

/-- Problems of one sort, which are all found by the same check. -/
def OneStage (sort : SchemaProblem → Bool) : Prop :=
  ∀ p q, sort p = true → sort q = true → p.stage = q.stage

variable {sort : SchemaProblem → Bool} {p : SchemaProblem} {before : List Field} {f : Field}

theorem OneStage.of_eq {q : SchemaProblem} : OneStage (· == q) := by
  intro p p' hp hp'
  rw [eq_of_beq hp, eq_of_beq hp']

theorem OneStage.of_stage {n : ℕ} (h : ∀ p, sort p = true → p.stage = n) : OneStage sort :=
  fun p q hp hq => (h p hp).trans (h q hq).symm

/-- One field has one problem of a sort at most. -/
theorem Staged.filter_eq_singleton {own : List SchemaProblem} (h : Staged own)
    (hsort : OneStage sort) (hp : p ∈ own) (hpsort : sort p = true) : own.filter sort = [p] := by
  have hmem : p ∈ own.filter sort := List.mem_filter.mpr ⟨hp, hpsort⟩
  have hpairs : (own.filter sort).Pairwise fun p q => p.stage < q.stage := List.Pairwise.filter _ h
  have hof : ∀ q ∈ own.filter sort, sort q = true := fun q hq => (List.mem_filter.mp hq).2
  cases hown : own.filter sort with
  | nil =>
      rw [hown] at hmem
      cases hmem
  | cons first rest =>
      rw [hown] at hmem hpairs hof
      have hrest : rest = [] := by
        refine List.eq_nil_iff_forall_not_mem.mpr fun q hq => ?_
        have hlt := (List.pairwise_cons.mp hpairs).1 q hq
        have heq := hsort first q (hof first List.mem_cons_self) (hof q (List.mem_cons_of_mem _ hq))
        exact hlt.ne heq
      rw [hrest, List.mem_singleton] at hmem
      rw [hrest, hmem]

theorem Staged.countP_le_one {own : List SchemaProblem} (h : Staged own)
    (hsort : OneStage sort) : own.countP sort ≤ 1 := by
  rw [List.countP_eq_length_filter]
  by_cases hany : ∃ p ∈ own, sort p = true
  · obtain ⟨p, hp, hpsort⟩ := hany
    rw [h.filter_eq_singleton hsort hp hpsort, List.length_singleton]
  · rw [List.filter_eq_nil_iff.mpr fun p hp hpsort => hany ⟨p, hp, hpsort⟩]
    exact Nat.zero_le 1

theorem filter_problems_of_reported (hsort : OneStage sort) (h : f.Reported before p)
    (hp : sort p = true) :
    (problems (before ++ [f])).filter sort = (problems before).filter sort ++ [p] := by
  obtain ⟨own, hown, hstaged, hmem⟩ := exists_own_problems before f
  rw [hown, List.filter_append, hstaged.filter_eq_singleton hsort ((hmem p).mpr h) hp]

theorem filter_problems_of_not (h : ∀ p, f.Reported before p → sort p = false) :
    (problems (before ++ [f])).filter sort = (problems before).filter sort := by
  obtain ⟨own, hown, -, hmem⟩ := exists_own_problems before f
  have hnone : own.filter sort = [] := by
    refine List.filter_eq_nil_iff.mpr fun p hp => ?_
    simp [h p ((hmem p).mp hp)]
  rw [hown, List.filter_append, hnone, List.append_nil]

variable {broken : Field → Bool} {problem : Field → SchemaProblem}

/-- Where every field that breaks a rule is reported, all of them are. -/
theorem filter_problems_each (hsort : OneStage sort)
    (h : ∀ before f p, f.Reported before p ∧ sort p = true ↔ broken f = true ∧ p = problem f)
    (fields : List Field) :
    (problems fields).filter sort = (fields.filter broken).map problem := by
  induction fields using List.reverseRecOn with
  | nil => rfl
  | append_singleton before f ih =>
      rw [List.filter_append, List.map_append, ← ih]
      by_cases hf : broken f = true
      · obtain ⟨hreported, hp⟩ := (h before f _).mpr ⟨hf, rfl⟩
        rw [filter_problems_of_reported hsort hreported hp, List.filter_cons_of_pos hf,
          List.filter_nil, List.map_singleton]
      · have hnone : ∀ p, f.Reported before p → sort p = false := by
          intro p hp
          by_contra hsorted
          exact hf ((h before f p).mp ⟨hp, by simpa using hsorted⟩).1
        rw [filter_problems_of_not hnone, List.filter_cons_of_neg hf, List.filter_nil,
          List.map_nil, List.append_nil]

/-- Where a field is reported if an earlier one shares something with it, all but the first
are. -/
theorem filter_problems_repeats (hsort : OneStage sort)
    (h : ∀ before f p, f.Reported before p ∧ sort p = true ↔
      broken f = true ∧ (∃ g ∈ before, broken g = true) ∧ p = problem f)
    (fields : List Field) :
    (problems fields).filter sort = (fields.filter broken).tail.map problem := by
  induction fields using List.reverseRecOn with
  | nil => rfl
  | append_singleton before f ih =>
      rw [List.filter_append]
      by_cases hf : broken f = true ∧ ∃ g ∈ before, broken g = true
      · obtain ⟨hreported, hp⟩ := (h before f _).mpr ⟨hf.1, hf.2, rfl⟩
        have hne : before.filter broken ≠ [] := by
          obtain ⟨g, hg, hbroken⟩ := hf.2
          exact List.ne_nil_of_mem (List.mem_filter.mpr ⟨hg, hbroken⟩)
        rw [filter_problems_of_reported hsort hreported hp, ih, List.filter_cons_of_pos hf.1,
          List.filter_nil, List.tail_append_of_ne_nil hne, List.map_append, List.map_singleton]
      · have hnone : ∀ p, f.Reported before p → sort p = false := by
          intro p hp
          by_contra hsorted
          obtain ⟨hbroken, htaken, -⟩ := (h before f p).mp ⟨hp, by simpa using hsorted⟩
          exact hf ⟨hbroken, htaken⟩
        rw [filter_problems_of_not hnone, ih]
        by_cases hbroken : broken f = true
        · have hfirst : before.filter broken = [] :=
            List.filter_eq_nil_iff.mpr fun g hg hg' => hf ⟨hbroken, g, hg, hg'⟩
          rw [hfirst, List.filter_cons_of_pos hbroken]
          rfl
        · rw [List.filter_cons_of_neg hbroken, List.filter_nil, List.append_nil]

theorem countP_problems_repeats {fields : List Field}
    (h : (problems fields).filter sort = (fields.filter broken).tail.map problem) :
    (problems fields).countP sort = fields.countP broken - 1 := by
  rw [List.countP_eq_length_filter, h, List.length_map, List.length_tail,
    ← List.countP_eq_length_filter]

end OneStage

/-- A place in a list with one more element is that element or a place in the list. -/
theorem append_singleton_eq_split {α : Type} {xs before after : List α} {last x : α}
    (h : xs ++ [last] = before ++ x :: after) :
    (after = [] ∧ before = xs ∧ x = last) ∨
      ∃ between, after = between ++ [last] ∧ xs = before ++ x :: between := by
  rcases List.append_eq_append_iff.mp h with ⟨more, rfl, hlast⟩ | ⟨more, rfl, hafter⟩
  · cases more with
    | nil =>
        obtain ⟨rfl, rfl⟩ := List.cons.inj hlast
        exact .inl ⟨rfl, List.append_nil xs, rfl⟩
    | cons y more => simp at hlast
  · cases more with
    | nil =>
        obtain ⟨rfl, rfl⟩ := List.cons.inj hafter
        exact .inl ⟨rfl, (List.append_nil _).symm, rfl⟩
    | cons y between =>
        obtain ⟨rfl, rfl⟩ := List.cons.inj hafter
        exact .inr ⟨between, rfl, rfl⟩

/-- The report holds what is reported of some field, and nothing else. -/
theorem mem_problems_iff {fields : List Field} {p : SchemaProblem} : p ∈ problems fields ↔
    ∃ before f after, fields = before ++ f :: after ∧ f.Reported before p := by
  induction fields using List.reverseRecOn with
  | nil => simp [problems, problemsAfter]
  | append_singleton fields f ih =>
      obtain ⟨own, hown, -, hmem⟩ := exists_own_problems fields f
      rw [hown, List.mem_append, ih, hmem]
      constructor
      · rintro (⟨before, g, after, rfl, hreported⟩ | hreported)
        · exact ⟨before, g, after ++ [f], by simp, hreported⟩
        · exact ⟨fields, f, [], rfl, hreported⟩
      · rintro ⟨before, g, after, hfields, hreported⟩
        rcases append_singleton_eq_split hfields with ⟨-, rfl, rfl⟩ | ⟨between, -, hsplit⟩
        · exact .inr hreported
        · exact .inl ⟨before, g, between, hsplit, hreported⟩

/-! ## Names and forms -/

/-- What is reported about the names of fields, or about their forms of one sort: of valid ones that
are the same all but the first, and every one that is not valid. -/
structure KeysReported {κ : Type} [DecidableEq κ] (reported : List SchemaProblem) (keys : List κ)
    (Valid : κ → Prop) (invalid duplicate : κ → SchemaProblem) : Prop where
  valid : ∀ k, Valid k →
    reported.count (duplicate k) = keys.count k - 1 ∧ reported.count (invalid k) = 0
  invalid : ∀ k, ¬Valid k →
    reported.count (invalid k) = keys.count k ∧ reported.count (duplicate k) = 0

theorem keysReported {κ : Type} [DecidableEq κ] {key : Field → Option κ} {Valid : κ → Prop}
    {invalid duplicate : κ → SchemaProblem}
    (hinvalid : ∀ before f k, f.Reported before (invalid k) ↔ key f = some k ∧ ¬Valid k)
    (hduplicate : ∀ before f k, f.Reported before (duplicate k) ↔
      key f = some k ∧ Valid k ∧ ∃ g ∈ before, key g = some k) (fields : List Field) :
    KeysReported (problems fields) (fields.filterMap key) Valid invalid duplicate := by
  have hnever : ∀ p : SchemaProblem, (∀ before f, ¬Field.Reported before f p) →
      (problems fields).count p = 0 := by
    intro p hp
    rw [List.count_eq_zero, mem_problems_iff]
    rintro ⟨before, f, after, -, hreported⟩
    exact hp before f hreported
  constructor
  · intro k hk
    have hbroken : ∀ before f p, f.Reported before p ∧ (p == duplicate k) = true ↔
        (key f == some k) = true ∧ (∃ g ∈ before, (key g == some k) = true) ∧ p = duplicate k := by
      intro before f p
      simp only [beq_iff_eq]
      constructor
      · rintro ⟨hreported, rfl⟩
        obtain ⟨hf, -, htaken⟩ := (hduplicate before f k).mp hreported
        exact ⟨hf, htaken, rfl⟩
      · rintro ⟨hf, htaken, rfl⟩
        exact ⟨(hduplicate before f k).mpr ⟨hf, hk, htaken⟩, rfl⟩
    constructor
    · rw [List.count_filterMap]
      exact countP_problems_repeats (filter_problems_repeats .of_eq hbroken fields)
    · exact hnever _ fun before f hreported => ((hinvalid before f k).mp hreported).2 hk
  · intro k hk
    have hbroken : ∀ before f p, f.Reported before p ∧ (p == invalid k) = true ↔
        (key f == some k) = true ∧ p = invalid k := by
      intro before f p
      simp only [beq_iff_eq]
      constructor
      · rintro ⟨hreported, rfl⟩
        exact ⟨((hinvalid before f k).mp hreported).1, rfl⟩
      · rintro ⟨hf, rfl⟩
        exact ⟨(hinvalid before f k).mpr ⟨hf, hk⟩, rfl⟩
    constructor
    · rw [List.count_filterMap, List.count, List.countP_eq_length_filter,
        filter_problems_each .of_eq hbroken, List.length_map, ← List.countP_eq_length_filter]
    · exact hnever _ fun before f hreported => hk ((hduplicate before f k).mp hreported).2.1

theorem names_reported (fields : List Field) : KeysReported (problems fields)
    (fields.map Field.name) (fun n => IsIdentifier n.toList) .invalidFieldName
    .duplicateFieldName := by
  have hnames : fields.map Field.name = fields.filterMap fun f => some f.name :=
    congrFun List.filterMap_eq_map.symm fields
  rw [hnames]
  refine keysReported (fun before f n => ?_) (fun before f n => ?_) fields
  · constructor
    · intro h
      cases h with
      | invalidFieldName invalid => exact ⟨rfl, invalid⟩
    · rintro ⟨hname, invalid⟩
      obtain rfl := Option.some.inj hname
      exact .invalidFieldName invalid
  · simp only [Option.some.injEq]
    constructor
    · intro h
      cases h with
      | duplicateFieldName valid taken => exact ⟨rfl, valid, taken⟩
    · rintro ⟨rfl, valid, taken⟩
      exact .duplicateFieldName valid taken

theorem shorts_reported (fields : List Field) : KeysReported (problems fields)
    (fields.filterMap Field.short) (· ∈ alphanumerics) .invalidShortOption
    .duplicateShortOption := by
  refine keysReported (fun before f c => ?_) (fun before f c => ?_) fields
  · constructor
    · intro h
      cases h with
      | invalidShortOption short invalid => exact ⟨short, invalid⟩
    · rintro ⟨short, invalid⟩
      exact .invalidShortOption short invalid
  · constructor
    · intro h
      cases h with
      | duplicateShortOption short valid taken => exact ⟨short, valid, taken⟩
    · rintro ⟨short, valid, taken⟩
      exact .duplicateShortOption short valid taken

theorem longs_reported (fields : List Field) : KeysReported (problems fields)
    (fields.filterMap Field.long) (fun l => IsDashedWords l.toList) .invalidLongOption
    .duplicateLongOption := by
  refine keysReported (fun before f l => ?_) (fun before f l => ?_) fields
  · constructor
    · intro h
      cases h with
      | invalidLongOption long invalid => exact ⟨long, invalid⟩
    · rintro ⟨long, invalid⟩
      exact .invalidLongOption long invalid
  · constructor
    · intro h
      cases h with
      | duplicateLongOption long valid taken => exact ⟨long, valid, taken⟩
    · rintro ⟨long, valid, taken⟩
      exact .duplicateLongOption long valid taken

/-! ## Places of positional fields -/

namespace SchemaProblem

/-- Reports of a further field for the first positional token. -/
def isFurtherFirst : SchemaProblem → Bool
  | multiplePositionals _ => true
  | _ => false

/-- Reports of a further field for the positional tokens that are left. -/
def isFurtherRest : SchemaProblem → Bool
  | multiplePositionalLists _ => true
  | _ => false

/-- Reports of a field for the first positional token behind the positional list. -/
def isOrder : SchemaProblem → Bool
  | positionalOrder _ => true
  | _ => false

/-- Reports of a default. -/
def isOfDefault : SchemaProblem → Bool
  | requiredWithDefault _ | defaultNotAllowed _ | defaultTypeMismatch .. => true
  | _ => false

theorem oneStage_isFurtherFirst : OneStage isFurtherFirst :=
  .of_stage (n := 5) fun p hp => by
    cases p <;> cases hp
    rfl

theorem oneStage_isFurtherRest : OneStage isFurtherRest :=
  .of_stage (n := 5) fun p hp => by
    cases p <;> cases hp
    rfl

theorem oneStage_isOrder : OneStage isOrder :=
  .of_stage (n := 5) fun p hp => by
    cases p <;> cases hp
    rfl

theorem oneStage_isOfDefault : OneStage isOfDefault :=
  .of_stage (n := 6) fun p hp => by cases p <;> cases hp <;> rfl

end SchemaProblem

open SchemaProblem

theorem filter_isFurtherFirst (fields : List Field) :
    (problems fields).filter isFurtherFirst =
      (fields.filter (·.kind.takesFirst)).tail.map fun f => .multiplePositionals f.name := by
  refine filter_problems_repeats oneStage_isFurtherFirst (fun before f p => ?_) fields
  constructor
  · rintro ⟨hreported, hp⟩
    cases hreported <;> cases hp
    exact ⟨by assumption, by assumption, rfl⟩
  · rintro ⟨first, taken, rfl⟩
    exact ⟨.multiplePositionals first taken, rfl⟩

theorem filter_isFurtherRest (fields : List Field) :
    (problems fields).filter isFurtherRest =
      (fields.filter (·.kind.takesRest)).tail.map fun f => .multiplePositionalLists f.name := by
  refine filter_problems_repeats oneStage_isFurtherRest (fun before f p => ?_) fields
  constructor
  · rintro ⟨hreported, hp⟩
    cases hreported <;> cases hp
    exact ⟨by assumption, by assumption, rfl⟩
  · rintro ⟨rest, taken, rfl⟩
    exact ⟨.multiplePositionalLists rest taken, rfl⟩

/-- The first field for the first positional token stands behind a positional list. -/
def Displaced (fields : List Field) (f : Field) : Prop :=
  ∃ before after, fields = before ++ f :: after ∧ f.kind.takesFirst = true ∧
    (∀ g ∈ before, g.kind.takesFirst = false) ∧ ∃ g ∈ before, g.kind.takesRest = true

theorem displaced_append_singleton {fields : List Field} {f last : Field} :
    Displaced (fields ++ [last]) f ↔
      Displaced fields f ∨ (f = last ∧ f.Reported fields (.positionalOrder f.name)) := by
  constructor
  · rintro ⟨before, after, hfields, first, free, behind⟩
    rcases append_singleton_eq_split hfields with ⟨-, rfl, rfl⟩ | ⟨between, -, hsplit⟩
    · exact .inr ⟨rfl, .positionalOrder first free behind⟩
    · exact .inl ⟨before, between, hsplit, first, free, behind⟩
  · rintro (⟨before, after, rfl, hplace⟩ | ⟨rfl, hreported⟩)
    · exact ⟨before, after ++ [last], by simp, hplace⟩
    · cases hreported with
      | positionalOrder first free behind => exact ⟨fields, [], rfl, first, free, behind⟩

/-- The order of positional fields is reported once if it is broken, and never otherwise. -/
theorem filter_isOrder (fields : List Field) :
    (∀ f, Displaced fields f → (problems fields).filter isOrder = [.positionalOrder f.name]) ∧
      ((∀ f, ¬Displaced fields f) → (problems fields).filter isOrder = []) := by
  induction fields using List.reverseRecOn with
  | nil =>
      refine ⟨?_, fun _ => rfl⟩
      rintro f ⟨before, after, hnil, -⟩
      simp at hnil
  | append_singleton fields last ih =>
      simp only [displaced_append_singleton]
      by_cases hlast : last.Reported fields (.positionalOrder last.name)
      · -- the fields before the last one hold none for the first token, so none is displaced
        have hnone : ∀ f, ¬Displaced fields f := by
          rintro f ⟨before, after, rfl, first, -⟩
          cases hlast with
          | positionalOrder _ free =>
              rw [free f (by simp)] at first
              cases first
        have hreport := filter_problems_of_reported oneStage_isOrder hlast rfl
        rw [ih.2 hnone, List.nil_append] at hreport
        constructor
        · rintro f (hf | ⟨rfl, -⟩)
          · exact absurd hf (hnone f)
          · exact hreport
        · intro hall
          exact absurd (.inr ⟨rfl, hlast⟩) (hall last)
      · have hnot : ∀ p, last.Reported fields p → isOrder p = false := by
          intro p hp
          cases hp with
          | positionalOrder first free behind =>
              exact absurd (.positionalOrder first free behind) hlast
          | _ => rfl
        rw [filter_problems_of_not hnot]
        constructor
        · rintro f (hf | ⟨rfl, hreported⟩)
          · exact ih.1 f hf
          · exact absurd hreported hlast
        · intro hall
          exact ih.2 fun f hf => hall f (.inl hf)

/-! ## Whole reports -/

/-- What the report of a list of fields holds. -/
structure Reports (fields : List Field) : Prop where
  starts : ∀ more, problems fields <+: problems (fields ++ more)
  complete : ∀ p, p ∈ problems fields ↔
    ∃ before f after, fields = before ++ f :: after ∧ f.Reported before p
  /-- The report grows by what each field has of its own. -/
  own : ∀ before f after, fields = before ++ f :: after → ∃ own,
    problems (before ++ [f]) = problems before ++ own ∧ Staged own ∧
      (∀ p, p ∈ own ↔ f.Reported before p) ∧ own.countP isOfDefault ≤ 1 ∧
      (f.required = true → f.default ≠ none →
        own.filter isOfDefault = [.requiredWithDefault f.name])
  names : KeysReported (problems fields) (fields.map Field.name)
    (fun n => IsIdentifier n.toList) .invalidFieldName .duplicateFieldName
  shorts : KeysReported (problems fields) (fields.filterMap Field.short) (· ∈ alphanumerics)
    .invalidShortOption .duplicateShortOption
  longs : KeysReported (problems fields) (fields.filterMap Field.long)
    (fun l => IsDashedWords l.toList) .invalidLongOption .duplicateLongOption
  firsts : (problems fields).filter isFurtherFirst =
    (fields.filter (·.kind.takesFirst)).tail.map fun f => .multiplePositionals f.name
  firsts_count : (problems fields).countP isFurtherFirst =
    fields.countP (·.kind.takesFirst) - 1
  rests : (problems fields).filter isFurtherRest =
    (fields.filter (·.kind.takesRest)).tail.map fun f => .multiplePositionalLists f.name
  rests_count : (problems fields).countP isFurtherRest = fields.countP (·.kind.takesRest) - 1
  displaced : ∀ f, Displaced fields f →
    (problems fields).filter isOrder = [.positionalOrder f.name]
  in_place : (∀ f, ¬Displaced fields f) → (problems fields).filter isOrder = []

/-- The report of a list of fields is complete and in declaration order: it starts with the report
of any front of the list, and each field adds what is to be reported of it, at most one problem of
its default among it.  Of fields with the same valid name, short or long form all but the first are
reported as duplicates, and every name or form that is not valid is reported as such and not as a
duplicate.  Of the positional fields of one sort all but the first are reported, and their order
once, if the first field for the first token stands behind a positional list. -/
theorem problems_report (fields : List Field) : Reports fields where
  starts := problems_prefix fields
  complete _ := mem_problems_iff
  own before f _ _ := by
    obtain ⟨own, hown, hstaged, hmem⟩ := exists_own_problems before f
    refine ⟨own, hown, hstaged, hmem, hstaged.countP_le_one oneStage_isOfDefault, ?_⟩
    intro required default
    exact hstaged.filter_eq_singleton oneStage_isOfDefault
      ((hmem _).mpr (.requiredWithDefault required default)) rfl
  names := names_reported fields
  shorts := shorts_reported fields
  longs := longs_reported fields
  firsts := filter_isFurtherFirst fields
  firsts_count := countP_problems_repeats (filter_isFurtherFirst fields)
  rests := filter_isFurtherRest fields
  rests_count := countP_problems_repeats (filter_isFurtherRest fields)
  displaced := (filter_isOrder fields).1
  in_place := (filter_isOrder fields).2

/-- Three fields with one name, an order that is broken and a default that is not allowed. -/
example : problems [.positionalList "a", .positional "a" .int,
      { Field.positional "a" .int with default := some (.str "1") }] =
    [.duplicateFieldName "a", .positionalOrder "a", .duplicateFieldName "a",
      .multiplePositionals "a", .requiredWithDefault "a"] := by
  decide

end CommandSchema
