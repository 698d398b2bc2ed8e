import CommandSchema.Proofs.Parse.Totality

/-!
# Schemas with one more field

A field that may be left out can be declared anywhere among the fields of a schema.  The
command lines that the smaller schema accepts mean the same to the larger one: their
tokens name forms that the smaller schema has, and no two fields share a form.
-/

namespace CommandSchema

open Scan

/-- A field that no command line has to supply and that leaves the first positional
token to others. -/
inductive Field.Omittable (f : Field) : Prop
  | switch (kind : f.kind.isSwitch = true)
  | valued {type : ValueType} (kind : f.kind = .valued type) (optional : f.required = false)
  | list (kind : f.kind = .positionalList) (optional : f.required = false)

theorem Field.Omittable.not_positional {f : Field} (h : f.Omittable) (type : ValueType) :
    f.kind ≠ .positional type := by
  intro hk
  cases h with
  | switch kind => simp [hk, FieldKind.isSwitch] at kind
  | valued kind => simp [hk] at kind
  | list kind => simp [hk] at kind

theorem Field.Omittable.not_unmet {f : Field} (h : f.Omittable) (occs : List Occurrence) :
    ¬f.Unmet occs := by
  intro hunmet
  obtain ⟨type, hk⟩ := hunmet.valued
  have hrequired := hunmet.required
  cases h with
  | switch kind => simp [hk, FieldKind.isSwitch] at kind
  | valued kind optional => simp [optional] at hrequired
  | list kind => simp [hk] at kind

/-! ## More fields -/

section Subset

variable {s s' : Schema}

theorem Schema.IsSwitch.mono (hsub : s.fields ⊆ s'.fields) {c : Char} (h : s.IsSwitch c) :
    s'.IsSwitch c := by
  obtain ⟨f, hf, hc, hk⟩ := h
  exact ⟨f, hsub hf, hc, hk⟩

/-- Whether an item makes sense depends on the fields that it names. -/
theorem Item.Valid.mono (hsub : s.fields ⊆ s'.fields) {item : Item} (h : item.Valid s) :
    item.Valid s' := by
  cases h with
  | positional plain => exact .positional plain
  | longSwitch mem form kind => exact .longSwitch (hsub mem) form kind
  | longValue mem form kind fits => exact .longValue (hsub mem) form kind fits
  | cluster nonempty switches =>
      exact .cluster nonempty fun c hc => (switches c hc).mono hsub
  | clusterValue switches mem form kind fits nonempty =>
      exact .clusterValue (fun c hc => (switches c hc).mono hsub) (hsub mem) form kind fits nonempty

theorem Line.Valid.mono (hsub : s.fields ⊆ s'.fields) {line : Line} (h : line.Valid s) :
    line.Valid s' := by
  intro item hitem
  exact (h item hitem).mono hsub

/-- A line that makes sense without a field does not use its forms. -/
theorem Line.Valid.uses_eq_nil (hsub : s.fields ⊆ s'.fields) {line : Line} (h : line.Valid s)
    {f : Field} (hf : f ∈ s'.fields) (hnew : f ∉ s.fields) : f.uses line.occurrences = [] := by
  apply List.filter_eq_nil_iff.mpr
  intro o ho hform
  obtain ⟨item, hitem, hoccurs⟩ := List.mem_flatMap.mp ho
  obtain ⟨g, hg, hform', -⟩ := (h item hitem).occurrence hoccurs
  have heq := eq_of_answersTo s' hf (hsub hg) hform hform'
  rw [heq] at hnew
  exact hnew hg

end Subset

/-! ## One more field -/

section Insert

variable {s s' : Schema} {xs ys : List Field} {f : Field} {line : Line}

theorem subset_of_insert (hs : s.fields = xs ++ ys) (hs' : s'.fields = xs ++ f :: ys) :
    s.fields ⊆ s'.fields := by
  rw [hs, hs']
  intro g hg
  simp only [List.mem_append, List.mem_cons] at hg ⊢
  rcases hg with hg | hg
  · exact Or.inl hg
  · exact Or.inr (Or.inr hg)

theorem mem_of_mem_insert (hs : s.fields = xs ++ ys) (hs' : s'.fields = xs ++ f :: ys)
    {g : Field} (hg : g ∈ s'.fields) : g = f ∨ g ∈ s.fields := by
  rw [hs'] at hg
  rw [hs]
  simp only [List.mem_append, List.mem_cons] at hg ⊢
  rcases hg with hg | hg | hg
  · exact Or.inr (Or.inl hg)
  · exact Or.inl hg
  · exact Or.inr (Or.inr hg)

theorem not_mem_of_insert (hs : s.fields = xs ++ ys) (hs' : s'.fields = xs ++ f :: ys) :
    f ∉ s.fields := by
  rw [hs, List.mem_append, not_or]
  exact s'.not_mem_of_split hs'

theorem takesFirst_insert (hs : s.fields = xs ++ ys) (hs' : s'.fields = xs ++ f :: ys)
    (hf : f.Omittable) : s'.takesFirst = s.takesFirst := by
  rw [Bool.eq_iff_iff, Line.takesFirst_eq_true_iff, Line.takesFirst_eq_true_iff]
  constructor
  · rintro ⟨g, hg, type, hk⟩
    rcases mem_of_mem_insert hs hs' hg with rfl | hg
    · exact absurd hk (hf.not_positional type)
    · exact ⟨g, hg, type, hk⟩
  · rintro ⟨g, hg, type, hk⟩
    exact ⟨g, subset_of_insert hs hs' hg, type, hk⟩

theorem remaining_insert (hs : s.fields = xs ++ ys) (hs' : s'.fields = xs ++ f :: ys)
    (hf : f.Omittable) : line.remaining s' = line.remaining s := by
  rw [Line.remaining, Line.remaining, takesFirst_insert hs hs' hf]

theorem given_insert (hs : s.fields = xs ++ ys) (hs' : s'.fields = xs ++ f :: ys)
    (hf : f.Omittable) (g : Field) : line.given s' g = line.given s g := by
  rw [Line.given, Line.given, remaining_insert hs hs' hf]

/-- The added field is left to its default: no token names it, and a list of positional
tokens is added only where none was left over. -/
theorem given_insert_self (hs : s.fields = xs ++ ys) (hs' : s'.fields = xs ++ f :: ys)
    (hf : f.Omittable) (h : line.Valid s) (hfits : ∀ rank e, ¬line.Misfit s rank e) :
    line.given s' f = none := by
  have hmem : f ∈ s'.fields := by simp [hs']
  have hnew := not_mem_of_insert hs hs'
  have hsub := subset_of_insert hs hs'
  have huses := h.uses_eq_nil hsub hmem hnew
  cases hk : f.kind with
  | flag => simp [Line.given, Field.slot, hk, huses]
  | counter => simp [Line.given, Field.slot, hk, huses]
  | valued type => simp [Line.given, Field.slot, hk, huses]
  | positional type => exact absurd hk (hf.not_positional type)
  | positionalList =>
      have hlistless : ∀ g ∈ s.fields, g.kind ≠ .positionalList := by
        intro g hg hkind
        have heq := s'.eq_of_positionalList hmem (hsub hg) hk hkind
        rw [heq] at hnew
        exact hnew hg
      have hrest : line.remaining s = [] := by
        by_contra hne
        obtain ⟨token, more, hrest⟩ := List.exists_cons_of_ne_nil hne
        exact hfits 3 _ (.leftOver hlistless hrest)
      simp [Line.given, hk, remaining_insert hs hs' hf, hrest]

theorem fits_insert (hs : s.fields = xs ++ ys) (hs' : s'.fields = xs ++ f :: ys)
    (hf : f.Omittable) (hfits : ∀ rank e, ¬line.Misfit s rank e) :
    ∀ rank e, ¬line.Misfit s' rank e := by
  intro rank e he
  cases he with
  | firstInvalid mem kind first fault =>
      rcases mem_of_mem_insert hs hs' mem with rfl | mem
      · exact hf.not_positional _ kind
      · exact hfits 0 _ (.firstInvalid mem kind first fault)
  | firstMissing mem kind required none =>
      rcases mem_of_mem_insert hs hs' mem with rfl | mem
      · exact hf.not_positional _ kind
      · exact hfits 1 _ (.firstMissing mem kind required none)
  | restMissing mem kind required none =>
      rw [remaining_insert hs hs' hf] at none
      rcases mem_of_mem_insert hs hs' mem with rfl | mem
      · cases hf with
        | switch switch => simp [kind, FieldKind.isSwitch] at switch
        | valued valued => simp [kind] at valued
        | list _ optional => simp [optional] at required
      · exact hfits 2 _ (.restMissing mem kind required none)
  | leftOver listless rest =>
      rw [remaining_insert hs hs' hf] at rest
      have hlistless : ∀ g ∈ s.fields, g.kind ≠ .positionalList := by
        intro g hg
        exact listless g (subset_of_insert hs hs' hg)
      exact hfits 3 _ (.leftOver hlistless rest)
  | @optionMissing earlier later g fields first unmet =>
      have hmem : g ∈ s'.fields := by simp [fields]
      rcases mem_of_mem_insert hs hs' hmem with rfl | hg
      · exact hf.not_unmet _ unmet
      · obtain ⟨type, hk⟩ := unmet.valued
        have hswitch : g.kind.isSwitch = false := by rw [hk]; rfl
        have hsupplies := Line.supplies_of_required hg hfits unmet.required hswitch
        simp [Line.Supplies, hk, unmet.unused] at hsupplies

/-- Declaring one more field that may be left out changes nothing for the command lines
that were accepted before.  Every other field keeps its value and whether it was supplied,
and the new field has its default. -/
theorem parse_insert_omittable {tokens : List String} {b : Bindings}
    (hs : s.fields = xs ++ ys) (hs' : s'.fields = xs ++ f :: ys) (hname : s'.name = s.name)
    (hf : f.Omittable) (h : s.parse tokens = .ok b) :
    ∃ front back, b.entries = front ++ back ∧
      front.map Binding.name = xs.map Field.name ∧ back.map Binding.name = ys.map Field.name ∧
      s'.parse tokens =
        .ok ⟨b.schema, front ++ ⟨f.name, f.defaultValue, false⟩ :: back⟩ := by
  obtain ⟨line, hline, rfl, hfits, rfl⟩ := exists_line_of_parse h
  have hline' := hline.mono (subset_of_insert hs hs')
  have hfits' := fits_insert hs hs' hf hfits
  have hself := given_insert_self hs hs' hf hline hfits
  rw [given_insert hs hs' hf] at hself
  have hparse : s'.parse line.tokens = .ok (line.bindings s') :=
    Schema.parse_of_fits hline' hfits'
  refine ⟨xs.map fun g => Schema.settle g (line.given s g),
    ys.map fun g => Schema.settle g (line.given s g), ?_, ?_, ?_, ?_⟩
  · simp [Line.bindings, hs]
  · simp [Schema.settle]
  · simp [Schema.settle]
  · rw [hparse]
    simp [Line.bindings, hs', hname, hself, given_insert hs hs' hf, Schema.settle]

end Insert

/-- The command with one more option, declared between its options. -/
def loggedCopyCommand : Schema where
  name := "copy"
  description := none
  fields := [.flag (some 'f') (some "force"), .counter (some 'v') none,
    (Field.valued none (some "log") .string).asOptional,
    (Field.valued (some 'j') (some "jobs") .int).withDefault (.int 2),
    .positional "source" .string, .positionalList "targets"]
  name_not_blank := copyCommand.name_not_blank
  consistent := by decide

theorem parse_insert_omittable_copy :
    copyCommand.parse ["-vj4", "a"] = .ok ⟨"copy",
      [⟨"force", .bool false, false⟩, ⟨"v", .count 1, true⟩, ⟨"jobs", .int 4, true⟩,
        ⟨"source", .str "a", true⟩, ⟨"targets", .list [], false⟩]⟩ ∧
    ∃ front back, front.map Binding.name = ["force", "v"] ∧
      loggedCopyCommand.parse ["-vj4", "a"] =
        .ok ⟨"copy", front ++ ⟨"log", .str "", false⟩ :: back⟩ := by
  have h : copyCommand.parse ["-vj4", "a"] = .ok ⟨"copy",
      [⟨"force", .bool false, false⟩, ⟨"v", .count 1, true⟩, ⟨"jobs", .int 4, true⟩,
        ⟨"source", .str "a", true⟩, ⟨"targets", .list [], false⟩]⟩ := by decide
  have hlog : ((Field.valued none (some "log") .string).asOptional).Omittable :=
    .valued rfl rfl
  have hs : copyCommand.fields = [.flag (some 'f') (some "force"), .counter (some 'v') none] ++
      [(Field.valued (some 'j') (some "jobs") .int).withDefault (.int 2),
        .positional "source" .string, .positionalList "targets"] := rfl
  obtain ⟨front, back, -, hfront, -, hparse⟩ :=
    parse_insert_omittable hs (rfl : loggedCopyCommand.fields = _) rfl hlog h
  exact ⟨h, front, back, hfront, hparse⟩

end CommandSchema
