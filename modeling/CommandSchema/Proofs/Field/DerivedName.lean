import CommandSchema.Proofs.Definition.Meaning

/-!
# Names that stem from forms

An option without a name of its own takes it from its forms.  Long forms give distinct names, and
these are always field names.  The only short forms that give none are the digits, for no name
starts with a digit.  Apart from that, a list of such options has no problems but those of the
defaults that are declared with it.
-/

namespace CommandSchema

namespace Field

/-- Options without a name of their own, built from their forms or declared by them. -/
inductive Unnamed : Field → Prop
  | flag (short : Option Char) (long : Option String) : Unnamed (.flag short long)
  | counter (short : Option Char) (long : Option String) : Unnamed (.counter short long)
  | valued (short : Option Char) (long : Option String) (type : ValueType) :
      Unnamed (.valued short long type)
  | declared {d : FieldDefinition} {f : Field} (hname : d.name = none) (h : d.toField = .ok f)
      (hoption : f.kind.isPositional = false) : Unnamed f

/-- Forms that validation accepts, one at least. -/
structure HasForms (f : Field) : Prop where
  some_form : f.short ≠ none ∨ f.long ≠ none
  short : ∀ c, f.short = some c → isShortName c = true
  long : ∀ l, f.long = some l → isLongName l = true

variable {f g : Field}

namespace Unnamed

theorem isPositional_eq_false (h : f.Unnamed) : f.kind.isPositional = false := by
  cases h with
  | flag | counter | valued => rfl
  | declared hname h hoption => exact hoption

theorem name_eq (h : f.Unnamed) : f.name = derivedName f.short f.long := by
  cases h with
  | flag | counter | valued => rfl
  | @declared d _ hname h hoption =>
      obtain ⟨-, ⟨name, hsays, hderived⟩, -, -, -⟩ :=
        FieldDefinition.toField_eq_ok_iff_means.mp h
      rw [hderived, hname, Option.getD_none]
      generalize hkind : f.kind = kind at hsays hoption
      generalize hforms : (⟨f.short, f.long⟩ : Spellings) = s at hsays
      cases hsays with
      | flag _ _ hgives | counter _ _ hgives | valued _ _ hgives =>
          rw [hgives.eq_derivedName, ← hforms]
      | positional | positionalList => cases hoption

end Unnamed

/-! ## Names from long forms -/

theorem derivedName_long (short : Option Char) (l : String) :
    derivedName short (some l) =
      String.ofList (l.toList.map fun c => if c = '-' then '_' else c) :=
  rfl

theorem isFieldName_derivedName_long {l : String} (hl : isLongName l = true)
    (short : Option Char) : isFieldName (derivedName short (some l)) = true := by
  obtain ⟨-, -, -, c, hc, hhead⟩ := (isLongName_iff l).mp hl
  obtain ⟨cs, hcs⟩ := List.head?_eq_some_iff.mp hhead
  have hdash : c ≠ '-' := by
    rintro rfl
    exact dash_not_mem_alphanumerics (.inl hc)
  rw [isFieldName_iff, derivedName_long, String.toList_ofList, hcs, List.map_cons, if_neg hdash]
  refine ⟨c, _, rfl, .inl hc, List.forall_mem_map.mpr ?_⟩
  intro d hd
  split_ifs with hdash'
  · exact .inr rfl
  · have hmem : d ∈ l.toList := hcs ▸ List.mem_cons_of_mem c hd
    exact .inl ((isAlphanum_iff d).mp (isAlphanum_of_mem_longName hl hmem hdash'))

/-- A long form has no underscores, so its dashes are found again in the name. -/
theorem eq_of_derivedName_long {l l' : String} {short short' : Option Char}
    (hl : isLongName l = true) (hl' : isLongName l' = true)
    (h : derivedName short (some l) = derivedName short' (some l')) : l = l' := by
  have hback : ∀ {l : String}, isLongName l = true →
      ((l.toList.map fun c => if c = '-' then '_' else c).map
        fun c => if c = '_' then '-' else c) = l.toList := by
    intro l hl
    rw [List.map_map]
    refine (List.map_congr_left ?_).trans (List.map_id _)
    intro c hc
    by_cases hdash : c = '-'
    · simp [hdash]
    · have hunderscore : c ≠ '_' := by
        rintro rfl
        exact absurd (isAlphanum_of_mem_longName hl hc hdash) (by decide)
      simp [hdash, hunderscore]
  rw [derivedName_long, derivedName_long, String.ofList_inj] at h
  rw [← String.toList_inj, ← hback hl, h, hback hl']

/-! ## Names from short forms -/

theorem isFieldName_derivedName_short {c : Char} (hc : isShortName c = true) :
    isFieldName (derivedName (some c) none) = true ↔ c ∈ letters := by
  have hname : derivedName (some c) none = String.singleton c := rfl
  rw [hname, isFieldName_iff, String.toList_singleton]
  constructor
  · rintro ⟨d, ds, hd, hletter, -⟩
    obtain ⟨rfl, -⟩ := List.cons.inj hd
    refine hletter.resolve_right ?_
    rintro rfl
    exact absurd hc (by decide)
  · intro hletter
    exact ⟨c, [], rfl, .inl hletter, List.forall_mem_nil _⟩

/-! ## Names of options -/

namespace Unnamed

theorem isFieldName_of_long (h : f.Unnamed) (hf : f.HasForms) (hlong : f.long ≠ none) :
    isFieldName f.name = true := by
  obtain ⟨l, hl⟩ := Option.ne_none_iff_exists'.mp hlong
  rw [h.name_eq, hl]
  exact isFieldName_derivedName_long (hf.long l hl) f.short

theorem isFieldName_iff_letter (h : f.Unnamed) (hf : f.HasForms) {c : Char}
    (hshort : f.short = some c) (hlong : f.long = none) :
    isFieldName f.name = true ↔ c ∈ letters := by
  rw [h.name_eq, hshort, hlong, isFieldName_derivedName_short (hf.short c hshort)]

theorem isFieldName_iff (h : f.Unnamed) (hf : f.HasForms) :
    isFieldName f.name = true ↔ f.long ≠ none ∨ ∃ c ∈ letters, f.short = some c := by
  by_cases hlong : f.long = none
  · obtain ⟨c, hc⟩ := Option.ne_none_iff_exists'.mp (hf.some_form.resolve_right (not_not.mpr hlong))
    simp [h.isFieldName_iff_letter hf hc hlong, hlong, hc]
  · simp [h.isFieldName_of_long hf hlong, hlong]

theorem name_ne (hf : f.Unnamed) (hg : g.Unnamed) (hf' : f.HasForms) (hg' : g.HasForms)
    {l l' : String} (hl : f.long = some l) (hl' : g.long = some l') (hne : l ≠ l') :
    f.name ≠ g.name := by
  intro hname
  rw [hf.name_eq, hg.name_eq, hl, hl'] at hname
  exact hne (eq_of_derivedName_long (hf'.long l hl) (hg'.long l' hl') hname)

end Unnamed

/-! ## Defaults apart -/

/-- The field without its default. -/
def withoutDefault (f : Field) : Field :=
  { f with default := none }

end Field

theorem Taken.problems_eq_append (t : Taken) (f : Field) :
    t.problems f = t.problems f.withoutDefault ++ f.defaultProblem?.toList := by
  have hnone : f.withoutDefault.defaultProblem? = none := rfl
  rw [problems, problems, hnone, Option.toList_none, List.append_nil]
  rfl

/-- What is wrong with defaults is wrong whatever the other fields are. -/
theorem problemsAfter_eq_of_withoutDefault {t : Taken} {fields : List Field}
    (h : problemsAfter t (fields.map Field.withoutDefault) = []) :
    problemsAfter t fields = fields.filterMap Field.defaultProblem? := by
  induction fields generalizing t with
  | nil => rfl
  | cons f fields ih =>
      rw [List.map_cons, problemsAfter, List.append_eq_nil_iff] at h
      -- what a field takes does not depend on its default
      have hrest : problemsAfter (t.insert f) fields = fields.filterMap Field.defaultProblem? :=
        ih h.2
      rw [problemsAfter, t.problems_eq_append, h.1, List.nil_append, hrest, List.filterMap_cons]
      cases f.defaultProblem? <;> rfl

/-! ## Lists of options -/

namespace Field.Unnamed

variable {f g : Field} {fields : List Field}

theorem wellFormed_withoutDefault (h : f.Unnamed) (hf : f.HasForms)
    (hname : isFieldName f.name = true) : f.withoutDefault.WellFormed where
  name := hname
  option_form := fun _ => hf.some_form
  positional_form := by
    intro hpositional
    have hoption : f.withoutDefault.kind.isPositional = false := h.isPositional_eq_false
    rw [hoption] at hpositional
    cases hpositional
  short := hf.short
  long := hf.long
  default := nofun

theorem compatible_withoutDefault (hf : f.Unnamed) (hg : g.Unnamed) (hname : f.name ≠ g.name)
    (hshort : ∀ c, f.short = some c → ∀ c', g.short = some c' → c ≠ c')
    (hlong : ∀ l, f.long = some l → ∀ l', g.long = some l' → l ≠ l') :
    f.withoutDefault.Compatible g.withoutDefault where
  name := hname
  short := fun c hc hc' => hshort c hc c hc' rfl
  long := fun l hl hl' => hlong l hl l hl' rfl
  positional := by
    intro hpositional
    have hoption : f.withoutDefault.kind.isPositional = false := hf.isPositional_eq_false
    rw [hoption] at hpositional
    cases hpositional
  positionalList := by
    intro _ hlist
    have hoption : g.withoutDefault.kind.isPositional = false := hg.isPositional_eq_false
    rw [hlist] at hoption
    cases hoption

theorem problems_of_longs (h : ∀ f ∈ fields, f.Unnamed ∧ f.HasForms ∧ f.long ≠ none)
    (hlongs : (fields.filterMap Field.long).Nodup)
    (hshorts : (fields.filterMap Field.short).Nodup) :
    problems fields = fields.filterMap Field.defaultProblem? := by
  refine problemsAfter_eq_of_withoutDefault ((problems_eq_nil_iff _).mpr ⟨?_, ?_⟩)
  · rw [List.forall_mem_map]
    intro f hf
    obtain ⟨hunnamed, hforms, hlong⟩ := h f hf
    exact hunnamed.wellFormed_withoutDefault hforms (hunnamed.isFieldName_of_long hforms hlong)
  · rw [List.Nodup, List.pairwise_filterMap] at hlongs hshorts
    rw [List.pairwise_map]
    refine (hlongs.and hshorts).imp_of_mem ?_
    rintro f g hf hg ⟨hlong, hshort⟩
    obtain ⟨hunnamed, hforms, hsome⟩ := h f hf
    obtain ⟨hunnamed', hforms', hsome'⟩ := h g hg
    obtain ⟨l, hl⟩ := Option.ne_none_iff_exists'.mp hsome
    obtain ⟨l', hl'⟩ := Option.ne_none_iff_exists'.mp hsome'
    have hname := hunnamed.name_ne hunnamed' hforms hforms' hl hl' (hlong l hl l' hl')
    exact hunnamed.compatible_withoutDefault hunnamed' hname hshort hlong

theorem problems_singleton_iff (h : f.Unnamed) (hf : f.HasForms) :
    problems [f] = [f].filterMap Field.defaultProblem? ↔ isFieldName f.name = true := by
  constructor
  · intro hproblems
    have hapart : problems [f] = problems [f.withoutDefault] ++ f.defaultProblem?.toList := by
      rw [problems, problems, problemsAfter, problemsAfter, problemsAfter, problemsAfter,
        Taken.problems_eq_append, List.append_nil, List.append_nil]
    have hnone : problems [f.withoutDefault] = [] := by
      rw [hapart] at hproblems
      refine List.append_left_eq_self.mp (hproblems.trans ?_)
      cases hdefault : f.defaultProblem? <;> simp [hdefault]
    exact (((problems_eq_nil_iff _).mp hnone).1 _ (List.mem_singleton_self _)).name
  · intro hname
    exact problemsAfter_eq_of_withoutDefault ((problems_eq_nil_iff _).mpr
      ⟨by simpa using h.wellFormed_withoutDefault hf hname, List.pairwise_singleton _ _⟩)

end Field.Unnamed

/-- The name that stems from accepted forms is a field name if there is a long form or the short
form is a letter, and only then: no name is a digit.  Different long forms give different names.  So
options with distinct long and distinct short forms have no problems but those of defaults that are
declared with them; a single option has none exactly if its name is a field name. -/
theorem derivedNames_usable (fields : List Field)
    (h : ∀ f ∈ fields, f.Unnamed ∧ f.HasForms) :
    (∀ f ∈ fields, isFieldName f.name = true ↔ f.long ≠ none ∨ ∃ c ∈ letters, f.short = some c) ∧
    (∀ f ∈ fields, ∀ g ∈ fields, ∀ l l', f.long = some l → g.long = some l' → l ≠ l' →
      f.name ≠ g.name) ∧
    ((∀ f ∈ fields, f.default = none) → fields.filterMap Field.defaultProblem? = []) ∧
    ((∀ f ∈ fields, f.long ≠ none) → (fields.filterMap Field.long).Nodup →
      (fields.filterMap Field.short).Nodup →
        problems fields = fields.filterMap Field.defaultProblem?) ∧
    ∀ f, fields = [f] → (problems fields = fields.filterMap Field.defaultProblem? ↔
      f.long ≠ none ∨ ∃ c ∈ letters, f.short = some c) := by
  refine ⟨?_, ?_, ?_, ?_, ?_⟩
  · intro f hf
    exact (h f hf).1.isFieldName_iff (h f hf).2
  · intro f hf g hg l l'
    exact (h f hf).1.name_ne (h g hg).1 (h f hf).2 (h g hg).2
  · intro hdefaults
    rw [List.filterMap_eq_nil_iff]
    intro f hf
    rw [Field.defaultProblem?, hdefaults f hf]
  · intro hlongs
    exact Field.Unnamed.problems_of_longs fun f hf => ⟨(h f hf).1, (h f hf).2, hlongs f hf⟩
  · rintro f rfl
    obtain ⟨hunnamed, hforms⟩ := h f (List.mem_singleton_self f)
    rw [hunnamed.problems_singleton_iff hforms, hunnamed.isFieldName_iff hforms]

/-- A flag with a long form that is the start of another one, and a declared option. -/
def dryOptions : List Field :=
  [.flag (some 'n') (some "dry-run"), .counter none (some "dry"),
    ⟨"dry_2nd", .valued .int, some '2', some "dry-2nd", false, some (.int 3), none⟩]

theorem derivedNames_usable_dry :
    dryOptions.map Field.name = ["dry_run", "dry", "dry_2nd"] ∧ problems dryOptions = [] ∧
      problems [.counter (some 'v') none] = [] := by
  have hdeclared : (⟨"dry_2nd", .valued .int, some '2', some "dry-2nd", false, some (.int 3),
      none⟩ : Field).Unnamed :=
    .declared (d := ⟨.arg, ["-2", "--dry-2nd"], none, some .int, some (.int 3), none, none⟩)
      rfl (by decide) rfl
  have hforms : ∀ (f : Field), f.short ≠ none ∨ f.long ≠ none → f.short.all isShortName = true →
      f.long.all isLongName = true → f.HasForms := by
    intro f hsome hshort hlong
    exact ⟨hsome, fun c hc => by simpa [hc] using hshort, fun l hl => by simpa [hl] using hlong⟩
  have hdry : ∀ f ∈ dryOptions, f.Unnamed ∧ f.HasForms := by
    simp only [dryOptions, List.forall_mem_cons]
    exact ⟨⟨.flag _ _, hforms _ (by decide) (by decide) (by decide)⟩,
      ⟨.counter _ _, hforms _ (by decide) (by decide) (by decide)⟩,
      ⟨hdeclared, hforms _ (by decide) (by decide) (by decide)⟩, List.forall_mem_nil _⟩
  have hlone : ∀ f ∈ [Field.counter (some 'v') none], f.Unnamed ∧ f.HasForms := by
    rw [List.forall_mem_singleton]
    exact ⟨.counter _ _, hforms _ (by decide) (by decide) (by decide)⟩
  refine ⟨by decide, ?_, ?_⟩
  · rw [(derivedNames_usable dryOptions hdry).2.2.2.1 (by decide) (by decide) (by decide)]
    decide
  · have hletter : 'v' ∈ letters := by simp [letters, Char.le_def]
    rw [((derivedNames_usable _ hlone).2.2.2.2 _ rfl).mpr (.inr ⟨'v', hletter, rfl⟩)]
    rfl

/-- A digit is a short form, but the name that stems from it alone is none. -/
theorem derivedName_digit_rejected :
    isShortName '1' = true ∧ (Field.flag (some '1') none).Unnamed ∧
      problems [.flag (some '1') none] = [.invalidFieldName "1"] :=
  ⟨by decide, .flag _ _, by decide⟩

end CommandSchema
