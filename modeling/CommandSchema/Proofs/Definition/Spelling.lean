import CommandSchema.Definition.Conversion
import CommandSchema.Proofs.Fallible
import CommandSchema.Proofs.Schema.Table

/-!
# The spellings of a definition

The options of a declared field are the spellings of the field's forms, each written once, or one
bare name.  No two fields of a schema share a form, so a schema answers to the spellings in its
definition, each for the field that it stands with, and to nothing else.
-/

namespace CommandSchema

/-! ## Forms and their spellings -/

/-- A form that could stand on a command line. Neither a dash nor an empty name can. -/
def Form.Proper : Form → Prop
  | short c => c ≠ '-'
  | long name => name ≠ ""

/-- Only the spelling of improper forms is ambiguous: all of them are two dashes. -/
theorem Form.eq_of_spelling {form form' : Form} (hform : form.Proper)
    (h : form'.spelling = form.spelling) : form' = form := by
  have htext := congrArg String.toList h
  cases form with
  | short c =>
      cases form' with
      | short c' => simpa [spelling] using htext
      | long n =>
          obtain ⟨hc, -⟩ : '-' = c ∧ n = "" := by simpa [spelling] using htext
          exact absurd hc.symm hform
  | long n =>
      cases form' with
      | short c =>
          obtain ⟨-, hn⟩ : c = '-' ∧ n = "" := by simpa [spelling] using htext
          exact absurd hn hform
      | long n' =>
          have hn : n'.toList = n.toList := by simpa [spelling] using htext
          rw [String.toList_inj.mp hn]

namespace Spellings

/-- The forms that there are. -/
def forms (s : Spellings) : List Form :=
  s.short.toList.map .short ++ s.long.toList.map .long

/-- The forms as they are spelt. -/
def written (s : Spellings) : List String :=
  s.forms.map Form.spelling

/-- A spelling adds its own form and keeps the others. -/
theorem written_of_add {s s' : Spellings} {o : String} (h : s.add o = .ok s') :
    s'.written.Perm (o :: s.written) := by
  unfold add at h
  split at h
  case h_1 => cases h
  case h_2 name _ hname =>
    split at h
    · cases h
    · rename_i hlong
      obtain rfl := Except.ok.inj h
      obtain rfl : o = "--" ++ String.ofList name := String.toList_inj.mp (by simpa using hname)
      have hnone : s.long = none := by simpa using hlong
      simp [written, forms, hnone, Form.spelling]
  case h_3 c _ hc =>
    split at h
    · cases h
    · rename_i hshort
      obtain rfl := Except.ok.inj h
      obtain rfl : o = "-" ++ String.singleton c := String.toList_inj.mp (by simpa using hc)
      have hnone : s.short = none := by simpa using hshort
      simp [written, forms, hnone, Form.spelling]
  case h_4 => cases h
  case h_5 => cases h

theorem written_of_foldlM {s s' : Spellings} {options : List String}
    (h : options.foldlM add s = .ok s') : s'.written.Perm (options ++ s.written) := by
  induction options generalizing s with
  | nil =>
      obtain rfl := Except.ok.inj h
      exact .refl _
  | cons o options ih =>
      rw [List.foldlM_cons] at h
      obtain ⟨next, hnext, h⟩ := ok_of_bind h
      have hrest : (options ++ next.written).Perm (options ++ o :: s.written) :=
        (written_of_add hnext).append_left options
      exact (ih h).trans (hrest.trans List.perm_middle)

/-- The options are the spellings of the forms that are found in them, each once. -/
theorem written_of_ofOptions {s : Spellings} {options : List String}
    (h : ofOptions options = .ok s) : s.written.Perm options := by
  simpa [written, forms] using written_of_foldlM h

end Spellings

/-- No bare name starts with a dash. -/
theorem isBareName_spelling (form : Form) : isBareName form.spelling = false := by
  cases form <;> simp [isBareName, Form.spelling]

/-! ## Declared fields -/

namespace Field

/-- The forms of a field. -/
def forms (f : Field) : List Form :=
  Spellings.forms ⟨f.short, f.long⟩

theorem short_mem_forms {f : Field} {c : Char} : .short c ∈ f.forms ↔ f.short = some c := by
  simp [forms, Spellings.forms]

theorem long_mem_forms {f : Field} {n : String} : .long n ∈ f.forms ↔ f.long = some n := by
  simp [forms, Spellings.forms]

theorem WellFormed.proper {f : Field} (h : f.WellFormed) {form : Form} (hform : form ∈ f.forms) :
    form.Proper := by
  cases form with
  | short c =>
      rintro rfl
      have hname := h.short '-' (short_mem_forms.mp hform)
      revert hname
      decide
  | long n =>
      rintro rfl
      have hname := h.long "" (long_mem_forms.mp hform)
      revert hname
      decide

end Field

theorem Schema.resolve_eq_some_iff (s : Schema) {form : Form} {i : ℕ} {f : Field} :
    s.resolve form = some (i, f) ↔ s.fields[i]? = some f ∧ form ∈ f.forms := by
  cases form with
  | short c => rw [Field.short_mem_forms, ← s.resolveShort_eq_some_iff, resolve]
  | long n => rw [Field.long_mem_forms, ← s.resolveLong_eq_some_iff, resolve]

namespace FieldDefinition

theorem refine_eq (d : FieldDefinition) (f : Field) :
    d.refine f = { f with
      name := d.name.getD f.name
      required := d.required.getD (d.default.isNone && f.required)
      default := d.default <|> f.default
      description := d.description <|> f.description } := by
  unfold refine
  cases d.name <;> cases d.default <;> cases d.description <;>
    rcases d.required with _ | _ | _ <;> rfl

/-- What else is declared of a field changes neither its kind nor its forms. -/
theorem refine_keeps (d : FieldDefinition) (f : Field) :
    (d.refine f).kind = f.kind ∧ (d.refine f).short = f.short ∧ (d.refine f).long = f.long := by
  rw [refine_eq]
  exact ⟨rfl, rfl, rfl⟩

/-- How the options of a declaration stand to the field that it declares. -/
inductive Declares (d : FieldDefinition) (f : Field) : Prop
  /-- The options are the spellings of the field's forms, each once. -/
  | spelt (h : d.options.Perm (f.forms.map Form.spelling))
  /-- The field has no forms, and its options are one bare name. -/
  | bare (name : String) (hname : isBareName name = true) (hoptions : d.options = [name])
      (hkind : f.kind.isPositional = true) (hforms : f.forms = [])

theorem isBareName_of_bareName? {d : FieldDefinition} {name : String}
    (h : d.bareName? = some name) : isBareName name = true ∧ d.options = [name] := by
  unfold bareName? at h
  split at h
  · split at h
    · obtain rfl := Option.some.inj h
      exact ⟨‹_›, ‹_›⟩
    · cases h
  · cases h

theorem declares_of_ofOptions {d : FieldDefinition} {f : Field} {s : Spellings}
    (h : Spellings.ofOptions d.options = .ok s) (hforms : f.forms = s.forms) : d.Declares f := by
  refine .spelt ?_
  rw [hforms]
  exact (Spellings.written_of_ofOptions h).symm

theorem declares_of_bareName? {d : FieldDefinition} {f : Field} {name : String}
    (h : d.bareName? = some name) (hkind : f.kind.isPositional = true) (hforms : f.forms = []) :
    d.Declares f := by
  obtain ⟨hname, hoptions⟩ := isBareName_of_bareName? h
  exact .bare name hname hoptions hkind hforms

theorem declares_of_bareField {d : FieldDefinition} {f : Field} (h : d.bareField = .ok f) :
    d.Declares f := by
  unfold bareField at h
  split at h
  case h_1 | h_2 | h_3 => cases h
  case h_4 | h_5 | h_6 =>
    obtain ⟨s, hs, h⟩ := ok_of_bind h
    obtain rfl := Except.ok.inj h
    exact declares_of_ofOptions hs rfl
  case h_7 name _ hname | h_8 name _ hname =>
    obtain rfl := Except.ok.inj h
    exact declares_of_bareName? hname rfl rfl

theorem declares_of_toField {d : FieldDefinition} {f : Field} (h : d.toField = .ok f) :
    d.Declares f := by
  obtain ⟨-, -, h⟩ := ok_of_bind h
  obtain ⟨bare, hbare, h⟩ := ok_of_bind h
  obtain rfl := Except.ok.inj h
  obtain ⟨hkind, hshort, hlong⟩ := d.refine_keeps bare
  have hforms : (d.refine bare).forms = bare.forms := by
    rw [Field.forms, hshort, hlong, Field.forms]
  cases declares_of_bareField hbare with
  | spelt hoptions => exact .spelt (hforms ▸ hoptions)
  | bare name hname hoptions hpositional hnone =>
      exact .bare name hname hoptions (hkind ▸ hpositional) (hforms.trans hnone)

namespace Declares

variable {d : FieldDefinition} {f : Field}

theorem spelling_mem_options (h : d.Declares f) (hf : f.WellFormed) (form : Form) :
    form.spelling ∈ d.options ↔ form ∈ f.forms := by
  cases h with
  | spelt hoptions =>
      rw [hoptions.mem_iff, List.mem_map]
      constructor
      · rintro ⟨form', hform', hspelling⟩
        rwa [← Form.eq_of_spelling (hf.proper hform') hspelling.symm] at hform'
      · intro hform
        exact ⟨form, hform, rfl⟩
  | bare name hname hoptions hkind hnone =>
      rw [hoptions, hnone, List.mem_singleton]
      constructor
      · rintro rfl
        rw [isBareName_spelling] at hname
        cases hname
      · exact nofun

theorem eq_bareName (h : d.Declares f) {o : String} (ho : o ∈ d.options)
    (hform : ∀ form : Form, o ≠ form.spelling) :
    f.kind.isPositional = true ∧ d.options = [o] := by
  cases h with
  | spelt hoptions =>
      obtain ⟨form, -, rfl⟩ := List.mem_map.mp (hoptions.mem_iff.mp ho)
      exact absurd rfl (hform form)
  | bare name hname hoptions hkind hnone =>
      rw [hoptions, List.mem_singleton] at ho
      rw [hoptions, ho]
      exact ⟨hkind, rfl⟩

end Declares

end FieldDefinition

/-! ## Declared schemas -/

/-- What a declaration has become at a position of a schema. -/
structure FieldDefinition.BecameAt (d : FieldDefinition) (s : Schema) (i : ℕ) (f : Field) :
    Prop where
  position : s.fields[i]? = some f
  declared : d.toField = .ok f
  recognized : ∀ form : Form, form.spelling ∈ d.options ↔ s.resolve form = some (i, f)
  bare : ∀ o ∈ d.options, (∀ form : Form, o ≠ form.spelling) →
    f.kind.isPositional = true ∧ d.options = [o]

namespace SchemaDefinition

variable {d : SchemaDefinition} {s : Schema}

theorem parts_of_toSchema (h : d.toSchema = .ok s) :
    s.name = d.name ∧ s.description = d.description ∧
      List.Forall₂ (fun e f => e.toField = .ok f) d.fields s.fields := by
  obtain ⟨fields, hfields, h⟩ := ok_of_bind h
  obtain ⟨hname, hdescription, rfl⟩ := Schema.parts_of_build (ok_of_mapError h)
  exact ⟨hname, hdescription, (mapM_eq_ok_iff.mp hfields).imp fun _ _ => ok_of_mapError⟩

theorem becameAt_of_toSchema (h : d.toSchema = .ok s) {i : ℕ} {e : FieldDefinition}
    (he : d.fields[i]? = some e) : ∃ f, e.BecameAt s i f := by
  obtain ⟨-, -, hfields⟩ := parts_of_toSchema h
  obtain ⟨hi, rfl⟩ := List.getElem?_eq_some_iff.mp he
  have hi' : i < s.fields.length := hfields.length_eq ▸ hi
  have hdeclared : d.fields[i].toField = .ok s.fields[i] := hfields.get hi hi'
  have hposition : s.fields[i]? = some s.fields[i] := List.getElem?_eq_getElem hi'
  have hdeclares := FieldDefinition.declares_of_toField hdeclared
  refine ⟨s.fields[i], hposition, hdeclared, fun form => ?_, fun o => hdeclares.eq_bareName⟩
  rw [s.resolve_eq_some_iff,
    hdeclares.spelling_mem_options (s.wellFormed (List.getElem_mem hi'))]
  exact (and_iff_right hposition).symm

end SchemaDefinition

/-- A schema has the name, the description and one field for each declaration, in order. It answers
to a form exactly if the form's spelling stands in a declaration, and then with the field of that
declaration; what stands there and spells no form is the bare name of a positional field. No two
declarations share a spelling, so that no entry in the tables of forms is ever taken over. -/
theorem toSchema_recognizes_spellings {d : SchemaDefinition} {s : Schema}
    (h : d.toSchema = .ok s) :
    s.name = d.name ∧ s.description = d.description ∧ s.fields.length = d.fields.length ∧
    (∀ (i : ℕ) (e : FieldDefinition), d.fields[i]? = some e → ∃ f, e.BecameAt s i f) ∧
    (∀ (form : Form) (i : ℕ) (f : Field), s.resolve form = some (i, f) →
      ∃ e, d.fields[i]? = some e ∧ form.spelling ∈ e.options) ∧
    (∀ (form : Form) (i j : ℕ) (e e' : FieldDefinition), d.fields[i]? = some e →
      d.fields[j]? = some e' → form.spelling ∈ e.options → form.spelling ∈ e'.options → i = j) ∧
    ∀ form, s.resolve form = (s.formTable form).bind fun i => s.fields[i]?.map fun f => (i, f) := by
  obtain ⟨hname, hdescription, hfields⟩ := SchemaDefinition.parts_of_toSchema h
  refine ⟨hname, hdescription, hfields.length_eq.symm,
    fun i e => SchemaDefinition.becameAt_of_toSchema h, ?_, ?_, s.resolve_eq_table⟩
  · intro form i f hresolve
    obtain ⟨hi, -⟩ := List.getElem?_eq_some_iff.mp (s.resolve_eq_some_iff.mp hresolve).1
    have he := List.getElem?_eq_getElem (hfields.length_eq ▸ hi)
    obtain ⟨g, hg⟩ := SchemaDefinition.becameAt_of_toSchema h he
    have hfg := hg.position.symm.trans (s.resolve_eq_some_iff.mp hresolve).1
    exact ⟨_, he, (hg.recognized form).mpr (Option.some.inj hfg ▸ hresolve)⟩
  · intro form i j e e' he he' hform hform'
    obtain ⟨f, hf⟩ := SchemaDefinition.becameAt_of_toSchema h he
    obtain ⟨f', hf'⟩ := SchemaDefinition.becameAt_of_toSchema h he'
    have hsame := ((hf.recognized form).mp hform).symm.trans ((hf'.recognized form).mp hform')
    exact congrArg Prod.fst (Option.some.inj hsame)

/-- A definition in which spellings stand in either order, one form is missing, and a field has
another name than its spelling. -/
def copyDefinition : SchemaDefinition where
  name := "copy"
  description := none
  fields := [⟨.flag, ["--force", "-f"], none, none, none, none, none⟩,
    ⟨.count, ["-v"], none, none, none, none, none⟩,
    ⟨.arg, ["-j", "--parallel"], some "jobs", some .int, some (.int 2), none, none⟩,
    ⟨.arg, ["source"], none, none, none, none, none⟩,
    ⟨.rest, ["targets"], none, none, none, some false, none⟩]

theorem toSchema_recognizes_spellings_copy :
    ∃ s, copyDefinition.toSchema = .ok s ∧ s.fields.length = 5 ∧
      (∃ f, s.resolve (.short 'j') = some (2, f) ∧ s.resolve (.long "parallel") = some (2, f)) ∧
      ∃ f, s.fields[3]? = some f ∧ f.kind.isPositional = true := by
  have hok : ∃ s, copyDefinition.toSchema = .ok s := ⟨_, rfl⟩
  obtain ⟨s, h⟩ := hok
  obtain ⟨-, -, hlength, hfields, -⟩ := toSchema_recognizes_spellings h
  obtain ⟨jobs, hjobs⟩ := hfields 2 _ rfl
  obtain ⟨source, hsource⟩ := hfields 3 _ rfl
  have hbare : ∀ form : Form, "source" ≠ form.spelling := by
    rintro form hform
    have hname : isBareName "source" = true := by decide
    rw [hform, isBareName_spelling] at hname
    cases hname
  refine ⟨s, h, hlength, ⟨jobs, ?_, ?_⟩, source, hsource.position, ?_⟩
  · exact (hjobs.recognized (.short 'j')).mp (by decide)
  · exact (hjobs.recognized (.long "parallel")).mp (by decide)
  · exact (hsource.bare "source" (by decide) hbare).1

end CommandSchema
