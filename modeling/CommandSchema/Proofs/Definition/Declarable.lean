import CommandSchema.Proofs.Definition.Rewriting
import CommandSchema.Proofs.Definition.Spelling
import CommandSchema.Proofs.Schema.Fingerprint
import CommandSchema.Proofs.Schema.Validation
import CommandSchema.Proofs.SchemaSet.Growth

/-!
# The schemas that can be declared

No declaration requires a flag or a counter, and none gives a positional list a default.  All else
that a field may be can be declared, so the schemas that definition files hold are exactly those
whose fields keep to this.
-/

namespace CommandSchema

/-- A field that is nothing that no declaration can ask for. -/
structure Field.Declarable (f : Field) : Prop where
  switch : f.kind.isSwitch = true → f.required = false
  list : f.kind = .positionalList → f.default = none

/-! ## What a declaration leads to -/

namespace FieldDefinition

theorem checkParameters_eq_ok_iff (d : FieldDefinition) :
    d.checkParameters = .ok () ↔ d.options ≠ [] ∧
      (d.kind ≠ .arg → d.default = none ∧ d.type = none) ∧
      (d.kind ≠ .arg → d.kind ≠ .rest → d.required = none) := by
  unfold checkParameters
  by_cases hoptions : d.options = []
  · simp [hoptions]
  · by_cases harg : d.kind = .arg
    · simp [hoptions, harg]
    · by_cases hrest : d.kind = .rest
      · cases hdefault : d.default <;> cases htype : d.type <;> simp [hoptions, hrest]
      · cases hdefault : d.default <;> cases htype : d.type <;> cases hrequired : d.required <;>
          simp [hoptions, harg, hrest]

theorem toField_eq_ok_iff {d : FieldDefinition} {f : Field} :
    d.toField = .ok f ↔
      d.checkParameters = .ok () ∧ ∃ bare, d.bareField = .ok bare ∧ d.refine bare = f := by
  constructor
  · intro h
    obtain ⟨⟨⟩, hcheck, h⟩ := ok_of_bind h
    obtain ⟨bare, hbare, h⟩ := ok_of_bind h
    exact ⟨hcheck, bare, hbare, Except.ok.inj h⟩
  · rintro ⟨hcheck, bare, hbare, rfl⟩
    rw [toField, hcheck]
    change (d.bareField >>= fun bare => .ok (d.refine bare)) = _
    rw [hbare]
    rfl

/-- The kind of a field stems from the kind of its declaration. -/
theorem kind_of_bareField {d : FieldDefinition} {f : Field} (h : d.bareField = .ok f) :
    f.default = none ∧
      (f.kind.isSwitch = true → d.kind ≠ .arg ∧ d.kind ≠ .rest ∧ f.required = false) ∧
      (f.kind = .positionalList → d.kind ≠ .arg) := by
  unfold bareField at h
  split at h
  case h_1 | h_2 | h_3 => cases h
  case h_4 hkind _ | h_5 hkind _ | h_6 hkind _ =>
    obtain ⟨s, -, h⟩ := ok_of_bind h
    obtain rfl := Except.ok.inj h
    simp [hkind, Field.flag, Field.counter, Field.valued, Field.option, FieldKind.isSwitch]
  case h_7 hkind _ | h_8 hkind _ =>
    obtain rfl := Except.ok.inj h
    simp [hkind, Field.positional, Field.positionalList, FieldKind.isSwitch]

theorem declarable_of_toField {d : FieldDefinition} {f : Field} (h : d.toField = .ok f) :
    f.Declarable := by
  obtain ⟨hcheck, bare, hbare, rfl⟩ := toField_eq_ok_iff.mp h
  obtain ⟨-, hdefault, hrequired⟩ := d.checkParameters_eq_ok_iff.mp hcheck
  obtain ⟨hnone, hswitch, hlist⟩ := kind_of_bareField hbare
  rw [refine_eq]
  constructor
  · intro hkind
    obtain ⟨harg, hrest, hbareRequired⟩ := hswitch hkind
    simp [hrequired harg hrest, hbareRequired]
  · intro hkind
    simp [hdefault (hlist hkind), hnone]

end FieldDefinition

/-! ## A declaration for a field -/

namespace Spellings

theorem add_short {s : Spellings} {c : Char} (hc : (Form.short c).Proper) (hs : s.short = none) :
    s.add (Form.short c).spelling = .ok { s with short := some c } := by
  have hdash : c ≠ '-' := hc
  have htext : (Form.short c).spelling.toList = ['-', c] := by simp [Form.spelling]
  simp [add, htext, hs]

theorem add_long {s : Spellings} {name : String} (hname : (Form.long name).Proper)
    (hs : s.long = none) :
    s.add (Form.long name).spelling = .ok { s with long := some name } := by
  have hne : name.toList ≠ [] := by
    intro hnil
    exact hname (String.toList_inj.mp hnil)
  have htext : (Form.long name).spelling.toList = '-' :: '-' :: name.toList := by
    simp [Form.spelling]
  simp [add, htext, hs]

/-- Forms are found again in their spellings. -/
theorem ofOptions_written {s : Spellings} (h : ∀ form ∈ s.forms, form.Proper) :
    ofOptions s.written = .ok s := by
  obtain ⟨short, long⟩ := s
  cases short with
  | none =>
      cases long with
      | none => rfl
      | some n =>
          have hn : (Form.long n).Proper := h _ (by simp [forms])
          change ((⟨none, none⟩ : Spellings).add (Form.long n).spelling >>= fun s => .ok s) = _
          rw [add_long hn rfl]
          rfl
  | some c =>
      have hc : (Form.short c).Proper := h _ (by simp [forms])
      cases long with
      | none =>
          change ((⟨none, none⟩ : Spellings).add (Form.short c).spelling >>= fun s => .ok s) = _
          rw [add_short hc rfl]
          rfl
      | some n =>
          have hn : (Form.long n).Proper := h _ (by simp [forms])
          change ((⟨none, none⟩ : Spellings).add (Form.short c).spelling >>=
            fun s => s.add (Form.long n).spelling >>= fun s => .ok s) = _
          rw [add_short hc rfl]
          change ((⟨some c, none⟩ : Spellings).add (Form.long n).spelling >>= fun s => .ok s) = _
          rw [add_long hn rfl]
          rfl

end Spellings

/-- The kind that a field is declared with. -/
def FieldKind.declared : FieldKind → DefinitionKind
  | .flag => .flag
  | .counter => .count
  | .valued _ | .positional _ => .arg
  | .positionalList => .rest

/-- A declaration that says all of a field. The bare name of a positional field is of no account,
because the name of the field is given as well. -/
def Field.declaration (f : Field) : FieldDefinition where
  kind := f.kind.declared
  options := if f.kind.isPositional then ["value"] else Spellings.written ⟨f.short, f.long⟩
  name := some f.name
  type := f.kind.type?
  default := f.default
  required := if f.kind.isSwitch then none else some f.required
  description := f.description

namespace Field

variable {f : Field}

theorem options_declaration_ne_nil (h : f.WellFormed) : f.declaration.options ≠ [] := by
  by_cases hkind : f.kind.isPositional = true
  · simp [declaration, hkind]
  · rw [Bool.not_eq_true] at hkind
    rcases h.option_form hkind with hshort | hlong
    · obtain ⟨c, hc⟩ := Option.ne_none_iff_exists'.mp hshort
      simp [declaration, hkind, Spellings.written, Spellings.forms, hc]
    · obtain ⟨n, hn⟩ := Option.ne_none_iff_exists'.mp hlong
      simp [declaration, hkind, Spellings.written, Spellings.forms, hn]

theorem checkParameters_declaration (h : f.WellFormed) (hf : f.Declarable) :
    f.declaration.checkParameters = .ok () := by
  have hconsistent := (wellFormed_iff_consistent f).mp h
  refine (FieldDefinition.checkParameters_eq_ok_iff _).mpr
    ⟨options_declaration_ne_nil h, ?_, ?_⟩
  · intro hkind
    have hdefault : f.default = none ∧ f.kind.type? = none := by
      cases hfield : f.kind with
      | flag | counter => exact ⟨hconsistent.switch_default (by rw [hfield]; rfl), rfl⟩
      | positionalList => exact ⟨hf.list hfield, rfl⟩
      | valued type | positional type => simp [declaration, hfield, FieldKind.declared] at hkind
    exact hdefault
  · intro harg hrest
    have hswitch : f.kind.isSwitch = true := by
      cases hfield : f.kind with
      | flag | counter => rfl
      | positionalList => simp [declaration, hfield, FieldKind.declared] at hrest
      | valued type | positional type => simp [declaration, hfield, FieldKind.declared] at harg
    rw [declaration, if_pos hswitch]

theorem bareName?_declaration_of_positional (hkind : f.kind.isPositional = true) :
    f.declaration.bareName? = some "value" := by
  have hoptions : f.declaration.options = ["value"] := by rw [declaration, if_pos hkind]
  have hbare : isBareName "value" = true := by decide
  rw [FieldDefinition.bareName?, hoptions]
  exact if_pos hbare

theorem bareName?_declaration_of_option (hkind : f.kind.isPositional = false) :
    f.declaration.bareName? = none := by
  rw [Option.eq_none_iff_forall_ne_some]
  intro name hname
  obtain ⟨hbare, hoptions⟩ := FieldDefinition.isBareName_of_bareName? hname
  have hmem : name ∈ Spellings.written ⟨f.short, f.long⟩ := by
    rw [declaration, hkind] at hoptions
    rw [show Spellings.written ⟨f.short, f.long⟩ = [name] from hoptions]
    exact List.mem_singleton_self name
  obtain ⟨form, -, rfl⟩ := List.mem_map.mp hmem
  rw [isBareName_spelling] at hbare
  cases hbare

theorem bareField_declaration_of_positional (hkind : f.kind.isPositional = true) :
    f.declaration.bareField = .ok { positional "value" .string with
      kind := f.kind
      required := f.kind != .positionalList } := by
  have hdeclared : f.declaration.kind = f.kind.declared := rfl
  have htype : f.declaration.type = f.kind.type? := rfl
  rw [FieldDefinition.bareField, bareName?_declaration_of_positional hkind, hdeclared, htype]
  cases hfield : f.kind with
  | positional type | positionalList => rfl
  | flag | counter | valued type => simp [hfield, FieldKind.isPositional] at hkind

theorem bareField_declaration_of_option (h : f.WellFormed) (hkind : f.kind.isPositional = false) :
    f.declaration.bareField = .ok { option f.kind f.short f.long with
      required := !f.kind.isSwitch } := by
  have hdeclared : f.declaration.kind = f.kind.declared := rfl
  have htype : f.declaration.type = f.kind.type? := rfl
  have hoptions : f.declaration.options = Spellings.written ⟨f.short, f.long⟩ := by
    rw [declaration, hkind]
    rfl
  have hspellings : Spellings.ofOptions f.declaration.options = .ok ⟨f.short, f.long⟩ := by
    rw [hoptions]
    exact Spellings.ofOptions_written fun form => h.proper
  rw [FieldDefinition.bareField, bareName?_declaration_of_option hkind, hspellings, hdeclared,
    htype]
  cases hfield : f.kind with
  | flag | counter | valued type => rfl
  | positional type | positionalList => simp [hfield, FieldKind.isPositional] at hkind

/-- What a declaration adds makes the field out of any field with its kind and its forms. -/
theorem refine_declaration {bare : Field} (hkind : bare.kind = f.kind)
    (hshort : bare.short = f.short) (hlong : bare.long = f.long) (hdefault : bare.default = none)
    (hdescription : bare.description = none)
    (hswitch : f.kind.isSwitch = true → bare.required = f.required ∧ f.default = none) :
    f.declaration.refine bare = f := by
  have hrequired : f.declaration.required.getD (f.declaration.default.isNone && bare.required) =
      f.required := by
    by_cases h : f.kind.isSwitch = true
    · obtain ⟨hsame, hnone⟩ := hswitch h
      simp [declaration, h, hsame, hnone]
    · simp [declaration, h]
  rw [FieldDefinition.refine_eq, hrequired, hkind, hshort, hlong, hdefault, hdescription]
  simp [declaration]

/-- A field that can be declared is declared by its own declaration. -/
theorem toField_declaration (h : f.WellFormed) (hf : f.Declarable) :
    f.declaration.toField = .ok f := by
  refine FieldDefinition.toField_eq_ok_iff.mpr ⟨checkParameters_declaration h hf, ?_⟩
  by_cases hkind : f.kind.isPositional = true
  · obtain ⟨hshort, hlong⟩ := h.positional_form hkind
    refine ⟨_, bareField_declaration_of_positional hkind,
      refine_declaration rfl hshort.symm hlong.symm rfl rfl ?_⟩
    intro hswitch
    cases hfield : f.kind <;> simp [hfield, FieldKind.isPositional, FieldKind.isSwitch] at hkind hswitch
  · rw [Bool.not_eq_true] at hkind
    refine ⟨_, bareField_declaration_of_option h hkind, refine_declaration rfl rfl rfl rfl rfl ?_⟩
    intro hswitch
    have hconsistent := (wellFormed_iff_consistent f).mp h
    simp [hswitch, hf.switch hswitch, hconsistent.switch_default hswitch]

end Field

/-- A definition that says all of a schema. -/
def Schema.definition (s : Schema) : SchemaDefinition :=
  ⟨s.name, s.description, s.fields.map Field.declaration⟩

theorem toSchema_definition {s : Schema} (h : ∀ f ∈ s.fields, f.Declarable) :
    s.definition.toSchema = .ok s := by
  have hfields : s.definition.fields.mapM SchemaDefinition.toField = .ok s.fields := by
    rw [mapM_eq_ok_iff, Schema.definition, List.forall₂_map_left_iff, List.forall₂_same]
    intro f hf
    rw [SchemaDefinition.toField, Field.toField_declaration (s.wellFormed hf) (h f hf)]
    rfl
  rw [SchemaDefinition.toSchema, hfields]
  change (Schema.build s.name s.description s.fields).mapError SchemaDefinitionProblem.schema = _
  rw [s.build_self]
  rfl

/-- A schema that can be declared is loaded from a text that holds nothing else. -/
theorem ofText_definition {s : Schema} (h : ∀ f ∈ s.fields, f.Declarable) :
    SchemaSet.ofText .json (Json.compact (⟨[s.definition]⟩ : DefinitionFile).document) =
      .ok ⟨[s], .inline⟩ := by
  have hcount : (⟨[s.definition]⟩ : DefinitionFile).NoCount := by
    simp only [DefinitionFile.NoCount, SchemaDefinition.NoCount, List.forall_mem_singleton,
      Schema.definition, List.forall_mem_map]
    intro f hf n
    exact s.default_ne_count hf n
  have hread := DefinitionFile.decodeFile_write hcount (Or.inl rfl)
  have hdefine : (SchemaSet.empty .inline).define s.definition = .ok ⟨[s], .inline⟩ := by
    rw [SchemaSet.define, toSchema_definition h]
    rfl
  rw [SchemaSet.ofText, SchemaSet.extendText, hread]
  change (SchemaSet.empty .inline).define s.definition >>= (fun set => .ok set) = _
  rw [hdefine]
  rfl

/-- A schema comes from a definition exactly if none of its flags and counters is required and its
positional list, if there is one, has no default.  It is then found in a definition file as well,
and no other schema ever is. -/
theorem declared_iff_declarable (s : Schema) :
    ((∃ d : SchemaDefinition, d.toSchema = .ok s) ↔ ∀ f ∈ s.fields, f.Declarable) ∧
    ((∃ format text set, SchemaSet.ofText format text = .ok set ∧ s ∈ set.schemas) ↔
      ∀ f ∈ s.fields, f.Declarable) := by
  have hnone : ∀ {d : SchemaDefinition} {x : Schema}, d.toSchema = .ok x →
      ∀ f ∈ x.fields, f.Declarable := by
    intro d x hd f hf
    obtain ⟨-, -, hfields⟩ := SchemaDefinition.parts_of_toSchema hd
    obtain ⟨e, -, he⟩ := exists_of_mem_mapM (mapM_eq_ok_iff.mpr hfields) f hf
    exact FieldDefinition.declarable_of_toField he
  refine ⟨⟨?_, ?_⟩, ?_, ?_⟩
  · rintro ⟨d, hd⟩
    exact hnone hd
  · intro h
    exact ⟨s.definition, toSchema_definition h⟩
  · rintro ⟨format, text, set, hset, hmem⟩
    obtain ⟨file, -, hset⟩ := ok_of_bind hset
    obtain ⟨xs, hxs, hinserts⟩ := SchemaSet.exists_inserts_of_extend hset
    rw [SchemaSet.eq_of_foldlM_insert hinserts] at hmem
    obtain ⟨d, -, hd⟩ := exists_of_mem_mapM (mapM_eq_ok_iff.mpr hxs) s hmem
    exact hnone hd
  · intro h
    exact ⟨.json, _, _, ofText_definition h, List.mem_singleton_self s⟩

end CommandSchema
