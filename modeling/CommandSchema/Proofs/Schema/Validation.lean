import CommandSchema.Proofs.Parse.Totality
import CommandSchema.Proofs.Text.Blank
import Mathlib.Data.Char
import Mathlib.Order.Interval.Set.Defs

/-!
# What validation accepts

A name and a list of fields are a schema exactly if the name is not blank and the fields
agree with each other.  Agreement is told here for the list as a whole, without the order
in which the fields are checked: names and forms follow their grammars and are distinct,
there is one positional field of each kind at most, and the defaults fit.
-/

namespace CommandSchema

/-! ## Blank names -/

theorem isBlankName_eq_false_iff (name : String) :
    isBlankName name = false ↔ Text.trim name.toList ≠ [] := by
  rw [ne_eq, Text.trim_eq_nil_iff, isBlankName, ← List.all_eq_true, Bool.not_eq_true]

/-! ## Grammars of names -/

/-- The letters of ASCII. -/
def letters : Set Char :=
  Set.Icc 'a' 'z' ∪ Set.Icc 'A' 'Z'

/-- The letters and digits of ASCII. -/
def alphanumerics : Set Char :=
  letters ∪ Set.Icc '0' '9'

theorem isAlpha_iff (c : Char) : c.isAlpha = true ↔ c ∈ letters := by
  simp [isAlpha_iff_isUpper_or_isLower, isUpper_iff, isLower_iff, letters, or_comm]

theorem isAlphanum_iff (c : Char) : c.isAlphanum = true ↔ c ∈ alphanumerics := by
  simp [Char.isAlphanum, isAlpha_iff, Char.isDigit, alphanumerics, Char.le_def]

/-- Letters, digits and underscores, and no digit at the front. -/
def IsIdentifier (text : List Char) : Prop :=
  ∃ c cs, text = c :: cs ∧ (c ∈ letters ∨ c = '_') ∧ ∀ d ∈ cs, d ∈ alphanumerics ∨ d = '_'

/-- Words of letters and digits with single dashes between them, and a letter at the
front. -/
def IsDashedWords (text : List Char) : Prop :=
  ∃ words : List (List Char), text = ['-'].intercalate words ∧
    (∀ word ∈ words, word ≠ [] ∧ ∀ c ∈ word, c ∈ alphanumerics) ∧
    ∃ c ∈ letters, text.head? = some c

theorem isFieldName_iff (name : String) : isFieldName name = true ↔ IsIdentifier name.toList := by
  unfold isFieldName IsIdentifier
  cases name.toList with
  | nil => simp
  | cons c cs => simp [isAlpha_iff, isAlphanum_iff]

theorem dash_not_mem_alphanumerics : '-' ∉ alphanumerics := by
  rw [← isAlphanum_iff]
  decide

theorem isLongName_iff (long : String) : isLongName long = true ↔ IsDashedWords long.toList := by
  have hhead : long.toList.head?.any Char.isAlpha = true ↔
      ∃ c ∈ letters, long.toList.head? = some c := by
    simp [Option.any_eq_true, isAlpha_iff, and_comm]
  have hword : ∀ word : List Char, (!word.isEmpty && word.all Char.isAlphanum) = true ↔
      word ≠ [] ∧ ∀ c ∈ word, c ∈ alphanumerics := by
    intro word
    simp [isAlphanum_iff]
  rw [isLongName, Bool.and_eq_true, hhead, List.all_eq_true]
  simp only [hword]
  constructor
  · rintro ⟨hletter, hwords⟩
    exact ⟨long.toList.splitOn '-', (List.intercalate_splitOn _).symm, hwords, hletter⟩
  · rintro ⟨words, htext, hwords, hletter⟩
    refine ⟨hletter, ?_⟩
    have hne : words ≠ [] := by
      rintro rfl
      obtain ⟨c, -, hc⟩ := hletter
      rw [htext] at hc
      cases hc
    have hdash : ∀ word ∈ words, '-' ∉ word := by
      intro word hword hmem
      exact dash_not_mem_alphanumerics ((hwords word hword).2 _ hmem)
    rw [htext, List.splitOn_intercalate _ hdash hne]
    exact hwords

/-! ## Single fields -/

/-- A field that keeps the rules for itself. -/
structure Field.Consistent (f : Field) : Prop where
  name : IsIdentifier f.name.toList
  option_form : f.kind.isPositional = false → f.short ≠ none ∨ f.long ≠ none
  positional_form : f.kind.isPositional = true → f.short = none ∧ f.long = none
  short : ∀ c, f.short = some c → c ∈ alphanumerics
  long : ∀ l, f.long = some l → IsDashedWords l.toList
  switch_default : f.kind.isSwitch = true → f.default = none
  default : ∀ v, f.kind.isSwitch = false → f.default = some v → f.kind.Admits v
  required_default : f.required = true → f.default = none

/-- A default that validation lets pass is of the field's type, and not one of a switch. -/
theorem defaultTypeName?_eq_some_iff (kind : FieldKind) (v : Value) :
    kind.defaultTypeName? = some v.typeName ↔ kind.isSwitch = false ∧ kind.Admits v := by
  constructor
  · intro h
    cases kind with
    | flag => cases h
    | counter => cases h
    | valued type => exact ⟨rfl, .valued (ValueType.admits_of_typeName (Option.some.inj h).symm)⟩
    | positional type =>
        exact ⟨rfl, .positional (ValueType.admits_of_typeName (Option.some.inj h).symm)⟩
    | positionalList =>
        cases v <;> simp [FieldKind.defaultTypeName?, Value.typeName] at h
        exact ⟨rfl, .positionalList _⟩
  · rintro ⟨hswitch, hadmits⟩
    cases hadmits with
    | flag b => cases hswitch
    | counter n => cases hswitch
    | valued htype => cases htype <;> rfl
    | positional htype => cases htype <;> rfl
    | positionalList items => rfl

theorem wellFormed_iff_consistent (f : Field) : f.WellFormed ↔ f.Consistent := by
  constructor
  · intro h
    refine ⟨(isFieldName_iff _).mp h.name, h.option_form, h.positional_form,
      fun c hc => (isAlphanum_iff c).mp (h.short c hc),
      fun l hl => (isLongName_iff l).mp (h.long l hl), ?_, ?_, ?_⟩
    · intro hswitch
      rw [Option.eq_none_iff_forall_ne_some]
      intro v hv
      have htyped := (defaultTypeName?_eq_some_iff f.kind v).mp (h.default v hv).2
      rw [hswitch] at htyped
      cases htyped.1
    · intro v _ hv
      exact ((defaultTypeName?_eq_some_iff f.kind v).mp (h.default v hv).2).2
    · intro hrequired
      rw [Option.eq_none_iff_forall_ne_some]
      intro v hv
      have hoptional := (h.default v hv).1
      rw [hrequired] at hoptional
      cases hoptional
  · intro h
    refine ⟨(isFieldName_iff _).mpr h.name, h.option_form, h.positional_form,
      fun c hc => (isAlphanum_iff c).mpr (h.short c hc),
      fun l hl => (isLongName_iff l).mpr (h.long l hl), ?_⟩
    intro v hv
    have hne : f.default ≠ none := by simp [hv]
    have hswitch : f.kind.isSwitch = false := by
      by_contra hswitch
      exact hne (h.switch_default (by simpa using hswitch))
    have hrequired : f.required = false := by
      by_contra hrequired
      exact hne (h.required_default (by simpa using hrequired))
    exact ⟨hrequired,
      (defaultTypeName?_eq_some_iff f.kind v).mpr ⟨hswitch, h.default v hswitch hv⟩⟩

/-! ## Positional fields -/

/-- The places of the positional fields in a list: there is one at most for the first
token, one at most for the others, and the first of them comes before the other. -/
structure PositionalsInPlace (fields : List Field) : Prop where
  one_first : ∀ (i j : ℕ) (f g : Field) (type type' : ValueType), fields[i]? = some f →
    fields[j]? = some g → f.kind = .positional type → g.kind = .positional type' → i = j
  one_list : ∀ (i j : ℕ) (f g : Field), fields[i]? = some f → fields[j]? = some g →
    f.kind = .positionalList → g.kind = .positionalList → i = j
  first_before_list : ∀ (i j : ℕ) (f g : Field) (type : ValueType), fields[i]? = some f →
    fields[j]? = some g → f.kind = .positional type → g.kind = .positionalList → i < j

/-- What a field leaves to the positional fields behind it. -/
structure Field.LeavesPlace (f g : Field) : Prop where
  first : f.kind.isPositional = true → ∀ type, g.kind ≠ .positional type
  list : f.kind = .positionalList → g.kind ≠ .positionalList

theorem pairwise_leavesPlace_iff (fields : List Field) :
    fields.Pairwise Field.LeavesPlace ↔ PositionalsInPlace fields := by
  constructor
  · intro hpairs
    have hleaves : ∀ (i j : ℕ) (f g : Field), i < j → fields[i]? = some f →
        fields[j]? = some g → f.LeavesPlace g := by
      intro i j f g hij hi hj
      obtain ⟨hi', rfl⟩ := List.getElem?_eq_some_iff.mp hi
      obtain ⟨hj', rfl⟩ := List.getElem?_eq_some_iff.mp hj
      exact List.pairwise_iff_getElem.mp hpairs i j hi' hj' hij
    refine ⟨?_, ?_, ?_⟩
    · intro i j f g type type' hi hj hf hg
      rcases Nat.lt_trichotomy i j with hij | hij | hij
      · exact absurd hg ((hleaves i j f g hij hi hj).first (by rw [hf]; rfl) type')
      · exact hij
      · exact absurd hf ((hleaves j i g f hij hj hi).first (by rw [hg]; rfl) type)
    · intro i j f g hi hj hf hg
      rcases Nat.lt_trichotomy i j with hij | hij | hij
      · exact absurd hg ((hleaves i j f g hij hi hj).list hf)
      · exact hij
      · exact absurd hf ((hleaves j i g f hij hj hi).list hg)
    · intro i j f g type hi hj hf hg
      rcases Nat.lt_trichotomy i j with hij | rfl | hij
      · exact hij
      · obtain rfl := Option.some.inj (hi.symm.trans hj)
        rw [hf] at hg
        cases hg
      · exact absurd hf ((hleaves j i g f hij hj hi).first (by rw [hg]; rfl) type)
  · intro h
    rw [List.pairwise_iff_getElem]
    intro i j hi hj hij
    have hi' := List.getElem?_eq_getElem hi
    have hj' := List.getElem?_eq_getElem hj
    constructor
    · intro hf type hg
      cases hkind : fields[i].kind with
      | positional type' => exact hij.ne (h.one_first i j _ _ type' type hi' hj' hkind hg)
      | positionalList =>
          exact hij.not_gt (h.first_before_list j i _ _ type hj' hi' hg hkind)
      | _ => simp [hkind, FieldKind.isPositional] at hf
    · intro hf hg
      exact hij.ne (h.one_list i j _ _ hi' hj' hf hg)

/-! ## Consistent lists of fields -/

/-- The fields of a schema, told without an order of checks. -/
structure ConsistentFields (fields : List Field) : Prop extends PositionalsInPlace fields where
  field : ∀ f ∈ fields, f.Consistent
  names_distinct : (fields.map Field.name).Nodup
  shorts_distinct : (fields.filterMap Field.short).Nodup
  longs_distinct : (fields.filterMap Field.long).Nodup

theorem compatible_iff (f g : Field) :
    f.Compatible g ↔ f.name ≠ g.name ∧
      (∀ c, f.short = some c → ∀ c', g.short = some c' → c ≠ c') ∧
      (∀ l, f.long = some l → ∀ l', g.long = some l' → l ≠ l') ∧ f.LeavesPlace g := by
  constructor
  · intro h
    refine ⟨h.name, ?_, ?_, h.positional, h.positionalList⟩
    · rintro c hf c' hg rfl
      exact h.short c hf hg
    · rintro l hf l' hg rfl
      exact h.long l hf hg
  · rintro ⟨hname, hshort, hlong, hplace⟩
    exact ⟨hname, fun c hf hg => hshort c hf c hg rfl, fun l hf hg => hlong l hf l hg rfl,
      hplace.first, hplace.list⟩

theorem problems_eq_nil_iff_consistent (fields : List Field) :
    problems fields = [] ↔ ConsistentFields fields := by
  have hpairs : fields.Pairwise Field.Compatible ↔ (fields.map Field.name).Nodup ∧
      (fields.filterMap Field.short).Nodup ∧ (fields.filterMap Field.long).Nodup ∧
      fields.Pairwise Field.LeavesPlace := by
    simp only [List.Nodup, List.pairwise_map, List.pairwise_filterMap, ← List.pairwise_and_iff,
      ← compatible_iff]
  rw [problems_eq_nil_iff, hpairs, pairwise_leavesPlace_iff]
  simp only [wellFormed_iff_consistent]
  constructor
  · rintro ⟨hfields, hnames, hshorts, hlongs, hplaces⟩
    exact ⟨hplaces, hfields, hnames, hshorts, hlongs⟩
  · intro h
    exact ⟨h.field, h.names_distinct, h.shorts_distinct, h.longs_distinct,
      h.toPositionalsInPlace⟩

/-- Validation accepts exactly the names that are not blank together with the fields that
are consistent, and what it makes of them is the schema with these parts. -/
theorem build_accepts_consistent (name : String) (description : Option String)
    (fields : List Field) :
    ((∃ s, Schema.build name description fields = .ok s) ↔
      Text.trim name.toList ≠ [] ∧ ConsistentFields fields) ∧
    ∀ s, Schema.build name description fields = .ok s →
      s.name = name ∧ s.description = description ∧ s.fields = fields := by
  rw [← isBlankName_eq_false_iff, ← problems_eq_nil_iff_consistent]
  refine ⟨⟨?_, ?_⟩, fun s => Schema.parts_of_build⟩
  · rintro ⟨s, hs⟩
    obtain ⟨rfl, -, rfl⟩ := Schema.parts_of_build hs
    exact ⟨s.name_not_blank, s.consistent⟩
  · rintro ⟨hname, hfields⟩
    exact ⟨_, Schema.build_self ⟨name, description, fields, hname, hfields⟩⟩

end CommandSchema
