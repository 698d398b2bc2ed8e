import CommandSchema.Proofs.Definition.Declarable

/-!
# What declarations mean

The options of a declaration are one bare name, or spellings of at most one short and one long form
in any order.  Together with the kind they decide which other parameters may be declared, and what
kind, name and forms the field has.
-/

namespace CommandSchema

/-! ## Spellings in any order -/

namespace Spellings

variable {s s' : Spellings} {options options' : List String}

/-- Whether there is no form of the same length yet. -/
def HasRoom (s : Spellings) : Form → Prop
  | .short _ => s.short = none
  | .long _ => s.long = none

/-- The forms with one form more. -/
def insert (s : Spellings) : Form → Spellings
  | .short c => { s with short := some c }
  | .long name => { s with long := some name }

theorem mem_forms_of_insert {form form' : Form} (h : form' ∈ (s.insert form).forms) :
    form' = form ∨ form' ∈ s.forms := by
  cases form with
  | short c =>
      rcases List.mem_append.mp h with hshort | hlong
      · exact .inl (by simpa [insert] using hshort)
      · exact .inr (List.mem_append_right _ hlong)
  | long name =>
      rcases List.mem_append.mp h with hshort | hlong
      · exact .inr (List.mem_append_left _ hshort)
      · exact .inl (by simpa [insert] using hlong)

/-- A spelling is taken if it is that of a proper form for which there is room. -/
theorem add_eq_ok_iff {o : String} :
    s.add o = .ok s' ↔
      ∃ form : Form, form.Proper ∧ form.spelling = o ∧ s.HasRoom form ∧ s' = s.insert form := by
  constructor
  · intro h
    unfold add at h
    split at h
    case h_1 => cases h
    case h_2 name hnamed hname =>
      split at h
      · cases h
      · rename_i hlong
        refine ⟨.long (String.ofList name), ?_, ?_, by simpa [HasRoom] using hlong,
          (Except.ok.inj h).symm⟩
        · intro hempty
          exact hnamed (by simpa using hempty)
        · rw [← String.toList_inj, hname]
          simp [Form.spelling]
    case h_3 c hproper hc =>
      split at h
      · cases h
      · rename_i hshort
        refine ⟨.short c, hproper, ?_, by simpa [HasRoom] using hshort, (Except.ok.inj h).symm⟩
        rw [← String.toList_inj, hc]
        simp [Form.spelling]
    case h_4 => cases h
    case h_5 => cases h
  · rintro ⟨form, hproper, rfl, hroom, rfl⟩
    cases form with
    | short c => exact add_short hproper hroom
    | long name => exact add_long hproper hroom

theorem insert_comm {form form' : Form} (hroom : s.HasRoom form)
    (hroom' : (s.insert form).HasRoom form') :
    s.HasRoom form' ∧ (s.insert form').HasRoom form ∧
      (s.insert form).insert form' = (s.insert form').insert form := by
  cases form with
  | short c =>
      cases form' with
      | short c' => cases hroom'
      | long name => exact ⟨hroom', hroom, rfl⟩
  | long name =>
      cases form' with
      | short c => exact ⟨hroom', hroom, rfl⟩
      | long name' => cases hroom'

/-- It does not matter in which order spellings stand. -/
theorem foldlM_add_perm (h : options.Perm options') (hs : options.foldlM add s = .ok s') :
    options'.foldlM add s = .ok s' := by
  induction h generalizing s with
  | nil => exact hs
  | cons o _ ih =>
      rw [List.foldlM_cons] at hs ⊢
      obtain ⟨next, hnext, hs⟩ := ok_of_bind hs
      rw [hnext]
      exact ih hs
  | swap o o' options =>
      rw [List.foldlM_cons] at hs
      obtain ⟨next, hnext, hs⟩ := ok_of_bind hs
      rw [List.foldlM_cons] at hs
      obtain ⟨last, hlast, hs⟩ := ok_of_bind hs
      obtain ⟨form, hproper, hform, hroom, rfl⟩ := add_eq_ok_iff.mp hnext
      obtain ⟨form', hproper', hform', hroom', rfl⟩ := add_eq_ok_iff.mp hlast
      obtain ⟨hfirst, hsecond, hsame⟩ := insert_comm hroom hroom'
      rw [List.foldlM_cons, add_eq_ok_iff.mpr ⟨form', hproper', hform', hfirst, rfl⟩, ok_bind,
        List.foldlM_cons, add_eq_ok_iff.mpr ⟨form, hproper, hform, hsecond, rfl⟩, ok_bind,
        ← hsame]
      exact hs
  | trans _ _ ih ih' => exact ih' (ih hs)

/-- Options that are the spellings of given forms, each once and in any order. Two dashes spell
none: they are a long form without its name. -/
structure Spell (options : List String) (s : Spellings) : Prop where
  proper : ∀ form ∈ s.forms, form.Proper
  options : options.Perm s.written

theorem ofOptions_eq_ok_iff : ofOptions options = .ok s ↔ Spell options s := by
  constructor
  · intro h
    refine ⟨?_, (written_of_ofOptions h).symm⟩
    refine invariant_of_foldlM (P := fun s => ∀ form ∈ s.forms, form.Proper) ?_ ?_ h
    · intro s o s' hs hadd form' hform'
      obtain ⟨form, hproper, -, -, rfl⟩ := add_eq_ok_iff.mp hadd
      rcases mem_forms_of_insert hform' with rfl | hmem
      · exact hproper
      · exact hs form' hmem
    · exact fun form hform => absurd hform List.not_mem_nil
  · intro h
    exact foldlM_add_perm h.options.symm (ofOptions_written h.proper)

/-- The name that forms give: that of the long form with underscores for dashes, else the short
form. -/
inductive Gives (s : Spellings) : String → Prop
  | long {name : String} (h : s.long = some name) :
      Gives s (String.ofList (name.toList.map fun c => if c = '-' then '_' else c))
  | short {c : Char} (hlong : s.long = none) (h : s.short = some c) : Gives s (String.singleton c)

theorem Gives.eq_derivedName {name : String} (h : s.Gives name) :
    name = Field.derivedName s.short s.long := by
  cases h with
  | long h => simp [Field.derivedName, h]
  | short hlong h => simp [Field.derivedName, hlong, h]

theorem Spell.gives (h : Spell options s) (hoptions : options ≠ []) :
    s.Gives (Field.derivedName s.short s.long) := by
  cases hlong : s.long with
  | some name =>
      rw [Field.derivedName]
      exact .long hlong
  | none =>
      cases hshort : s.short with
      | some c => exact .short hlong hshort
      | none =>
          have hnil : s.written = [] := by simp [written, forms, hshort, hlong]
          exact absurd (hnil ▸ h.options).eq_nil hoptions

end Spellings

/-! ## Bare names -/

/-- A letter, then letters, digits and underscores. -/
def IsBareWord (text : List Char) : Prop :=
  ∃ c cs, text = c :: cs ∧ c ∈ letters ∧ ∀ d ∈ cs, d ∈ alphanumerics ∨ d = '_'

theorem isBareName_iff (name : String) : isBareName name = true ↔ IsBareWord name.toList := by
  unfold isBareName IsBareWord
  cases name.toList with
  | nil => simp
  | cons c cs => simp [isAlpha_iff, isAlphanum_iff]

namespace FieldDefinition

variable {d : FieldDefinition} {f : Field}

theorem bareName?_eq_some_iff {name : String} :
    d.bareName? = some name ↔ d.options = [name] ∧ IsBareWord name.toList := by
  rw [← isBareName_iff]
  constructor
  · intro h
    exact (isBareName_of_bareName? h).symm
  · rintro ⟨hoptions, hname⟩
    rw [bareName?, hoptions]
    exact if_pos hname

/-- No bare name is the spelling of a form. -/
theorem bareName?_eq_none_of_spell {s : Spellings} (h : Spellings.Spell d.options s) :
    d.bareName? = none := by
  rw [Option.eq_none_iff_forall_ne_some]
  intro name hname
  obtain ⟨hbare, hoptions⟩ := isBareName_of_bareName? hname
  have hmem : name ∈ s.written := by
    rw [← h.options.mem_iff, hoptions]
    exact List.mem_singleton_self name
  obtain ⟨form, -, rfl⟩ := List.mem_map.mp hmem
  rw [isBareName_spelling] at hbare
  cases hbare

/-! ## Declarations that are accepted -/

/-- A declaration as it is documented for its kind. -/
structure Documented (d : FieldDefinition) : Prop where
  options : d.options ≠ []
  switch : d.kind = .flag ∨ d.kind = .count →
    d.default = none ∧ d.type = none ∧ d.required = none ∧ ∃ s, Spellings.Spell d.options s
  rest : d.kind = .rest →
    d.default = none ∧ d.type = none ∧ ∃ name, d.options = [name] ∧ IsBareWord name.toList
  arg : d.kind = .arg →
    (∃ name, d.options = [name] ∧ IsBareWord name.toList) ∨ ∃ s, Spellings.Spell d.options s

/-- The kind, the name and the forms that the kind and the options of a declaration say. -/
inductive Says (d : FieldDefinition) : FieldKind → String → Spellings → Prop
  | flag {s : Spellings} {name : String} (hkind : d.kind = .flag)
      (h : Spellings.Spell d.options s) (hname : s.Gives name) : Says d .flag name s
  | counter {s : Spellings} {name : String} (hkind : d.kind = .count)
      (h : Spellings.Spell d.options s) (hname : s.Gives name) : Says d .counter name s
  | valued {s : Spellings} {name : String} (hkind : d.kind = .arg)
      (h : Spellings.Spell d.options s) (hname : s.Gives name) :
      Says d (.valued (d.type.getD .string)) name s
  | positional {name : String} (hkind : d.kind = .arg) (h : d.options = [name])
      (hname : IsBareWord name.toList) :
      Says d (.positional (d.type.getD .string)) name ⟨none, none⟩
  | positionalList {name : String} (hkind : d.kind = .rest) (h : d.options = [name])
      (hname : IsBareWord name.toList) : Says d .positionalList name ⟨none, none⟩

/-- The field as it is documented for a declaration. -/
structure Means (d : FieldDefinition) (f : Field) : Prop where
  options : ∃ name, d.Says f.kind name ⟨f.short, f.long⟩ ∧ f.name = d.name.getD name
  default : f.default = d.default
  required : f.required = d.required.getD (decide (d.kind = .arg ∧ d.default = none))
  description : f.description = d.description

/-- The field of which nothing but the kind and the options are declared. -/
def plain (d : FieldDefinition) (kind : FieldKind) (name : String) (s : Spellings) : Field where
  name := name
  kind := kind
  short := s.short
  long := s.long
  required := decide (d.kind = .arg)
  default := none
  description := none

theorem bareField_eq_ok_iff (hoptions : d.options ≠ []) :
    d.bareField = .ok f ↔ ∃ kind name s, d.Says kind name s ∧ f = d.plain kind name s := by
  constructor
  · intro h
    unfold bareField at h
    split at h
    case h_1 | h_2 | h_3 => cases h
    case h_4 hkind _ =>
      obtain ⟨s, hs, h⟩ := ok_of_bind h
      obtain rfl := Except.ok.inj h
      have hspell := Spellings.ofOptions_eq_ok_iff.mp hs
      refine ⟨_, _, s, .flag hkind hspell (hspell.gives hoptions), ?_⟩
      simp [Field.flag, Field.option, plain, hkind]
    case h_5 hkind _ =>
      obtain ⟨s, hs, h⟩ := ok_of_bind h
      obtain rfl := Except.ok.inj h
      have hspell := Spellings.ofOptions_eq_ok_iff.mp hs
      refine ⟨_, _, s, .counter hkind hspell (hspell.gives hoptions), ?_⟩
      simp [Field.counter, Field.option, plain, hkind]
    case h_6 hkind _ =>
      obtain ⟨s, hs, h⟩ := ok_of_bind h
      obtain rfl := Except.ok.inj h
      have hspell := Spellings.ofOptions_eq_ok_iff.mp hs
      refine ⟨_, _, s, .valued hkind hspell (hspell.gives hoptions), ?_⟩
      simp [Field.valued, Field.option, plain, hkind]
    case h_7 name hkind hname =>
      obtain rfl := Except.ok.inj h
      obtain ⟨hsingle, hbare⟩ := bareName?_eq_some_iff.mp hname
      refine ⟨_, name, _, .positional hkind hsingle hbare, ?_⟩
      simp [Field.positional, plain, hkind]
    case h_8 name hkind hname =>
      obtain rfl := Except.ok.inj h
      obtain ⟨hsingle, hbare⟩ := bareName?_eq_some_iff.mp hname
      refine ⟨_, name, _, .positionalList hkind hsingle hbare, ?_⟩
      simp [Field.positionalList, Field.positional, plain, hkind]
  · rintro ⟨kind, name, s, hsays, rfl⟩
    rw [bareField]
    cases hsays with
    | flag hkind h hname | counter hkind h hname | valued hkind h hname =>
        rw [bareName?_eq_none_of_spell h, hkind, Spellings.ofOptions_eq_ok_iff.mpr h,
          hname.eq_derivedName, plain, hkind]
        rfl
    | positional hkind h hname | positionalList hkind h hname =>
        rw [bareName?_eq_some_iff.mpr ⟨h, hname⟩, hkind, plain, hkind]
        rfl

theorem refine_plain (d : FieldDefinition) (kind : FieldKind) (name : String) (s : Spellings) :
    d.refine (d.plain kind name s) = {
      name := d.name.getD name
      kind := kind
      short := s.short
      long := s.long
      required := d.required.getD (decide (d.kind = .arg ∧ d.default = none))
      default := d.default
      description := d.description } := by
  rw [refine_eq]
  cases d.default <;> simp [plain]

theorem means_iff :
    d.Means f ↔ ∃ kind name s, d.Says kind name s ∧ d.refine (d.plain kind name s) = f := by
  constructor
  · rintro ⟨⟨name, hsays, hname⟩, hdefault, hrequired, hdescription⟩
    refine ⟨_, name, _, hsays, ?_⟩
    rw [refine_plain, ← hname, ← hrequired, ← hdefault, ← hdescription]
  · rintro ⟨kind, name, s, hsays, rfl⟩
    rw [refine_plain]
    exact ⟨⟨name, hsays, rfl⟩, rfl, rfl, rfl⟩

theorem documented_iff :
    d.Documented ↔ d.checkParameters = .ok () ∧ ∃ kind name s, d.Says kind name s := by
  rw [checkParameters_eq_ok_iff]
  constructor
  · intro h
    have hgives : ∀ {s}, Spellings.Spell d.options s → ∃ name, s.Gives name := fun hs =>
      ⟨_, hs.gives h.options⟩
    cases hkind : d.kind with
    | flag =>
        obtain ⟨hdefault, htype, hrequired, s, hs⟩ := h.switch (.inl hkind)
        obtain ⟨name, hname⟩ := hgives hs
        exact ⟨⟨h.options, fun _ => ⟨hdefault, htype⟩, fun _ _ => hrequired⟩,
          _, name, s, .flag hkind hs hname⟩
    | count =>
        obtain ⟨hdefault, htype, hrequired, s, hs⟩ := h.switch (.inr hkind)
        obtain ⟨name, hname⟩ := hgives hs
        exact ⟨⟨h.options, fun _ => ⟨hdefault, htype⟩, fun _ _ => hrequired⟩,
          _, name, s, .counter hkind hs hname⟩
    | rest =>
        obtain ⟨hdefault, htype, name, hoptions, hname⟩ := h.rest hkind
        exact ⟨⟨h.options, fun _ => ⟨hdefault, htype⟩, fun _ hrest => absurd rfl hrest⟩,
          _, name, _, .positionalList hkind hoptions hname⟩
    | arg =>
        refine ⟨⟨h.options, fun harg => absurd rfl harg, fun harg => absurd rfl harg⟩, ?_⟩
        rcases h.arg hkind with ⟨name, hoptions, hname⟩ | ⟨s, hs⟩
        · exact ⟨_, name, _, .positional hkind hoptions hname⟩
        · obtain ⟨name, hname⟩ := hgives hs
          exact ⟨_, name, s, .valued hkind hs hname⟩
  · rintro ⟨⟨hoptions, hparameters, hrequired⟩, kind, name, s, hsays⟩
    cases hsays with
    | flag hkind h _ | counter hkind h _ =>
        rw [hkind] at hparameters hrequired
        obtain ⟨hdefault, htype⟩ := hparameters (by decide)
        refine ⟨hoptions, fun _ => ⟨hdefault, htype, hrequired (by decide) (by decide), s, h⟩,
          ?_, ?_⟩
        · simp [hkind]
        · simp [hkind]
    | valued hkind h _ =>
        exact ⟨hoptions, by simp [hkind], by simp [hkind], fun _ => .inr ⟨s, h⟩⟩
    | positional hkind h hname =>
        exact ⟨hoptions, by simp [hkind], by simp [hkind], fun _ => .inl ⟨name, h, hname⟩⟩
    | positionalList hkind h hname =>
        rw [hkind] at hparameters
        obtain ⟨hdefault, htype⟩ := hparameters (by decide)
        exact ⟨hoptions, by simp [hkind], fun _ => ⟨hdefault, htype, name, h, hname⟩,
          by simp [hkind]⟩

/-- A declaration whose parameters are accepted is the field that it means. -/
theorem toField_eq_ok_iff_means :
    d.toField = .ok f ↔ d.checkParameters = .ok () ∧ d.Means f := by
  rw [toField_eq_ok_iff, means_iff]
  refine and_congr_right fun hcheck => ?_
  have hoptions := (d.checkParameters_eq_ok_iff.mp hcheck).1
  constructor
  · rintro ⟨bare, hbare, hf⟩
    obtain ⟨kind, name, s, hsays, rfl⟩ := (bareField_eq_ok_iff hoptions).mp hbare
    exact ⟨kind, name, s, hsays, hf⟩
  · rintro ⟨kind, name, s, hsays, hf⟩
    exact ⟨_, (bareField_eq_ok_iff hoptions).mpr ⟨kind, name, s, hsays, rfl⟩, hf⟩

/-- A declaration is a field exactly if it is as documented for its kind, and then it is the field
that is documented and no other. -/
theorem toField_accepts_documented (d : FieldDefinition) :
    ((∃ f, d.toField = .ok f) ↔ d.Documented) ∧
    ∀ f, d.toField = .ok f ↔ d.Documented ∧ d.Means f := by
  simp only [toField_eq_ok_iff_means, documented_iff]
  constructor
  · constructor
    · rintro ⟨f, hcheck, hmeans⟩
      obtain ⟨kind, name, s, hsays, -⟩ := means_iff.mp hmeans
      exact ⟨hcheck, kind, name, s, hsays⟩
    · rintro ⟨hcheck, kind, name, s, hsays⟩
      exact ⟨_, hcheck, means_iff.mpr ⟨kind, name, s, hsays, rfl⟩⟩
  · intro f
    constructor
    · rintro ⟨hcheck, hmeans⟩
      obtain ⟨kind, name, s, hsays, -⟩ := means_iff.mp hmeans
      exact ⟨⟨hcheck, kind, name, s, hsays⟩, hmeans⟩
    · rintro ⟨⟨hcheck, -⟩, hmeans⟩
      exact ⟨hcheck, hmeans⟩

end FieldDefinition

end CommandSchema
