import CommandSchema.Proofs.Schema.Consistency
import Mathlib.Data.List.Basic

/-!
# Lookup in a schema

Since the forms, the names and the positional kinds of a schema's fields do not
collide, a lookup answers with the one field that fits and with its position.
-/

namespace CommandSchema

theorem FieldKind.matches_positional_iff {kind : FieldKind} :
    (kind matches .positional _) = true ↔ ∃ type, kind = .positional type := by
  cases kind <;> simp

theorem FieldKind.matches_positionalList_iff {kind : FieldKind} :
    (kind matches .positionalList) = true ↔ kind = .positionalList := by
  cases kind <;> simp

theorem Field.Compatible.not_positional {f g : Field} (h : f.Compatible g)
    (hf : ∃ type, f.kind = .positional type) : ¬∃ type, g.kind = .positional type := by
  obtain ⟨type, hf⟩ := hf
  rintro ⟨type', hg⟩
  exact h.positional (by simp [hf, FieldKind.isPositional]) type' hg

namespace Schema

variable (s : Schema)

theorem compatible_of_lt {i j : ℕ} {f g : Field} (hij : i < j)
    (hf : s.fields[i]? = some f) (hg : s.fields[j]? = some g) : f.Compatible g := by
  obtain ⟨hi, rfl⟩ := List.getElem?_eq_some_iff.mp hf
  obtain ⟨hj, rfl⟩ := List.getElem?_eq_some_iff.mp hg
  exact List.pairwise_iff_getElem.mp s.pairwise_compatible i j hi hj hij

/-- A property that no two compatible fields share has one position at most. -/
theorem position_unique {p : Field → Prop}
    (hp : ∀ f g : Field, f.Compatible g → p f → ¬p g)
    {i j : ℕ} {f g : Field} (hf : s.fields[i]? = some f) (hg : s.fields[j]? = some g)
    (hpf : p f) (hpg : p g) : i = j := by
  rcases Nat.lt_trichotomy i j with hij | hij | hij
  · exact absurd hpg (hp f g (s.compatible_of_lt hij hf hg) hpf)
  · exact hij
  · exact absurd hpf (hp g f (s.compatible_of_lt hij hg hf) hpg)

theorem eq_of_exclusive {p : Field → Prop}
    (hp : ∀ f g : Field, f.Compatible g → p f → ¬p g) {f g : Field} (hf : f ∈ s.fields)
    (hg : g ∈ s.fields) (hpf : p f) (hpg : p g) : f = g := by
  obtain ⟨i, hi⟩ := List.getElem?_of_mem hf
  obtain ⟨j, hj⟩ := List.getElem?_of_mem hg
  obtain rfl := s.position_unique hp hi hj hpf hpg
  exact Option.some.inj (hi.symm.trans hj)

/-- A field is declared once, since it has a name of its own. -/
theorem not_mem_of_split {xs ys : List Field} {f : Field} (h : s.fields = xs ++ f :: ys) :
    f ∉ xs ∧ f ∉ ys := by
  have hpairs := s.pairwise_compatible
  rw [h, List.pairwise_append, List.pairwise_cons] at hpairs
  obtain ⟨-, ⟨hafter, -⟩, hbefore⟩ := hpairs
  constructor
  · intro hf
    exact (hbefore f hf f List.mem_cons_self).name rfl
  · intro hf
    exact (hafter f hf).name rfl

theorem mem_entries {i : ℕ} {f : Field} :
    (i, f) ∈ s.entries ↔ s.fields[i]? = some f := by
  simp [entries, List.mem_map, List.mem_zipIdx_iff_getElem?]

theorem find?_entries_eq_some_iff {p : Field → Bool}
    (hp : ∀ f g : Field, f.Compatible g → p f = true → ¬p g = true) {i : ℕ} {f : Field} :
    (s.entries.find? fun e => p e.2) = some (i, f) ↔
      s.fields[i]? = some f ∧ p f = true := by
  constructor
  · intro h
    have hpf := List.find?_some h
    exact ⟨s.mem_entries.mp (List.mem_of_find?_eq_some h), hpf⟩
  · rintro ⟨hf, hpf⟩
    cases h : s.entries.find? fun e => p e.2 with
    | none => exact absurd hpf (List.find?_eq_none.mp h (i, f) (s.mem_entries.mpr hf))
    | some e =>
        obtain ⟨j, g⟩ := e
        have hg := s.mem_entries.mp (List.mem_of_find?_eq_some h)
        have hpg := List.find?_some h
        obtain rfl := s.position_unique hp hf hg hpf hpg
        rw [hf] at hg
        rw [Option.some.inj hg]

theorem find?_entries_eq_none_iff {p : Field → Bool} :
    (s.entries.find? fun e => p e.2) = none ↔ ∀ f ∈ s.fields, p f = false := by
  rw [List.find?_eq_none]
  constructor
  · intro h f hf
    obtain ⟨i, hi⟩ := List.getElem?_of_mem hf
    simpa using h (i, f) (s.mem_entries.mpr hi)
  · rintro h ⟨i, f⟩ hf
    simpa using h f (List.mem_of_getElem? (s.mem_entries.mp hf))

/-! ## Forms -/

theorem resolveShort_eq_some_iff {c : Char} {i : ℕ} {f : Field} :
    s.resolveShort c = some (i, f) ↔ s.fields[i]? = some f ∧ f.short = some c := by
  have hp : ∀ f g : Field, f.Compatible g → f.matchesShort c = true →
      ¬g.matchesShort c = true := by
    intro f g hfg hf hg
    exact hfg.short c (by simpa [Field.matchesShort] using hf)
      (by simpa [Field.matchesShort] using hg)
  rw [show s.resolveShort c = s.entries.find? fun e => e.2.matchesShort c from rfl,
    s.find?_entries_eq_some_iff hp, Field.matchesShort, beq_iff_eq]

theorem resolveShort_eq_none_iff {c : Char} :
    s.resolveShort c = none ↔ ∀ f ∈ s.fields, f.short ≠ some c := by
  rw [show s.resolveShort c = s.entries.find? fun e => e.2.matchesShort c from rfl,
    s.find?_entries_eq_none_iff (p := fun f => f.matchesShort c)]
  simp [Field.matchesShort]

theorem resolveLong_eq_some_iff {l : String} {i : ℕ} {f : Field} :
    s.resolveLong l = some (i, f) ↔ s.fields[i]? = some f ∧ f.long = some l := by
  have hp : ∀ f g : Field, f.Compatible g → f.matchesLong l = true →
      ¬g.matchesLong l = true := by
    intro f g hfg hf hg
    exact hfg.long l (by simpa [Field.matchesLong] using hf)
      (by simpa [Field.matchesLong] using hg)
  rw [show s.resolveLong l = s.entries.find? fun e => e.2.matchesLong l from rfl,
    s.find?_entries_eq_some_iff hp, Field.matchesLong, beq_iff_eq]

theorem resolveLong_eq_none_iff {l : String} :
    s.resolveLong l = none ↔ ∀ f ∈ s.fields, f.long ≠ some l := by
  rw [show s.resolveLong l = s.entries.find? fun e => e.2.matchesLong l from rfl,
    s.find?_entries_eq_none_iff (p := fun f => f.matchesLong l)]
  simp [Field.matchesLong]

theorem isPositional_eq_false_of_short {f : Field} {c : Char} (hf : f ∈ s.fields)
    (hc : f.short = some c) : f.kind.isPositional = false := by
  by_contra hpos
  have hform := (s.wellFormed hf).positional_form (by simpa using hpos)
  simp [hc] at hform

theorem isPositional_eq_false_of_long {f : Field} {l : String} (hf : f ∈ s.fields)
    (hl : f.long = some l) : f.kind.isPositional = false := by
  by_contra hpos
  have hform := (s.wellFormed hf).positional_form (by simpa using hpos)
  simp [hl] at hform

/-! ## Positional fields -/

/-- The field for the first positional token, and its position. -/
def first? : Option (ℕ × Field) :=
  s.entries.find? fun (_, f) => f.kind matches .positional _

/-- The field for the positional tokens that are left, and its position. -/
def list? : Option (ℕ × Field) :=
  s.entries.find? fun (_, f) => f.kind matches .positionalList

theorem positionalEntries_eq :
    s.positionalEntries = s.first?.toList ++ s.list?.toList :=
  rfl

theorem eq_of_positional {f g : Field} {type type' : ValueType} (hf : f ∈ s.fields)
    (hg : g ∈ s.fields) (hkind : f.kind = .positional type)
    (hkind' : g.kind = .positional type') : f = g :=
  s.eq_of_exclusive (fun _ _ h => h.not_positional) hf hg ⟨type, hkind⟩ ⟨type', hkind'⟩

theorem eq_of_positionalList {f g : Field} (hf : f ∈ s.fields) (hg : g ∈ s.fields)
    (hkind : f.kind = .positionalList) (hkind' : g.kind = .positionalList) : f = g :=
  s.eq_of_exclusive (fun _ _ h => h.positionalList) hf hg hkind hkind'

theorem first?_eq_some_iff {i : ℕ} {f : Field} :
    s.first? = some (i, f) ↔
      s.fields[i]? = some f ∧ ∃ type, f.kind = .positional type := by
  have hp : ∀ f g : Field, f.Compatible g → (f.kind matches .positional _) = true →
      ¬(g.kind matches .positional _) = true := by
    intro f g hfg hf hg
    exact hfg.not_positional (FieldKind.matches_positional_iff.mp hf)
      (FieldKind.matches_positional_iff.mp hg)
  exact (s.find?_entries_eq_some_iff hp).trans
    (and_congr_right fun _ => FieldKind.matches_positional_iff)

theorem first?_eq_none_iff :
    s.first? = none ↔
      ∀ f ∈ s.fields, ∀ type, f.kind ≠ .positional type := by
  refine (s.find?_entries_eq_none_iff (p := fun f => f.kind matches .positional _)).trans
    (forall₂_congr fun f _ => ?_)
  rw [Bool.eq_false_iff, ne_eq, FieldKind.matches_positional_iff, not_exists]

theorem list?_eq_some_iff {i : ℕ} {f : Field} :
    s.list? = some (i, f) ↔
      s.fields[i]? = some f ∧ f.kind = .positionalList := by
  have hp : ∀ f g : Field, f.Compatible g → (f.kind matches .positionalList) = true →
      ¬(g.kind matches .positionalList) = true := by
    intro f g hfg hf hg
    exact hfg.positionalList (FieldKind.matches_positionalList_iff.mp hf)
      (FieldKind.matches_positionalList_iff.mp hg)
  exact (s.find?_entries_eq_some_iff hp).trans
    (and_congr_right fun _ => FieldKind.matches_positionalList_iff)

theorem list?_eq_none_iff :
    s.list? = none ↔
      ∀ f ∈ s.fields, f.kind ≠ .positionalList := by
  refine (s.find?_entries_eq_none_iff (p := fun f => f.kind matches .positionalList)).trans
    (forall₂_congr fun f _ => ?_)
  rw [Bool.eq_false_iff, ne_eq, FieldKind.matches_positionalList_iff]

/-! ## Tables -/

theorem name_unique {i j : ℕ} {f g : Field} (hf : s.fields[i]? = some f)
    (hg : s.fields[j]? = some g) (hname : f.name = g.name) : i = j := by
  refine s.position_unique (p := fun h => h.name = f.name) ?_ hf hg rfl hname.symm
  intro g h hgh hg hh
  exact hgh.name (hg.trans hh.symm)

theorem field?_eq_some_iff {name : String} {f : Field} :
    s.field? name = some f ↔ f ∈ s.fields ∧ f.name = name := by
  constructor
  · intro h
    exact ⟨List.mem_of_find?_eq_some h, by simpa using List.find?_some h⟩
  · rintro ⟨hf, rfl⟩
    cases h : s.field? f.name with
    | none => simpa using List.find?_eq_none.mp h f hf
    | some g =>
        have hg := List.mem_of_find?_eq_some h
        have hname : g.name = f.name := by simpa using List.find?_some h
        obtain ⟨i, hi⟩ := List.getElem?_of_mem hf
        obtain ⟨j, hj⟩ := List.getElem?_of_mem hg
        obtain rfl := s.name_unique hi hj hname.symm
        rw [Option.some.inj (hi.symm.trans hj)]

/-- Changing a table of the fields at the position of one field. -/
theorem map_set {α : Type} {i : ℕ} {f : Field} {v : α} {old new : Field → α}
    (hf : s.fields[i]? = some f) (hv : new f = v)
    (hothers : ∀ g ∈ s.fields, g ≠ f → old g = new g) :
    (s.fields.map old).set i v = s.fields.map new := by
  apply List.ext_getElem?
  intro j
  rw [List.getElem?_set, List.getElem?_map, List.getElem?_map]
  by_cases hij : i = j
  · subst j
    obtain ⟨hi, rfl⟩ := List.getElem?_eq_some_iff.mp hf
    simp [hv, hi]
  · rw [if_neg hij]
    cases hg : s.fields[j]? with
    | none => rfl
    | some g =>
        have hne : g ≠ f := by
          rintro rfl
          exact hij (s.name_unique hf hg rfl)
        simp [hothers g (List.mem_of_getElem? hg) hne]

end Schema

end CommandSchema
