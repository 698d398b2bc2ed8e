import CommandSchema.Proofs.Fallible
import CommandSchema.SchemaSet.Loading
import Mathlib.Data.List.Nodup

/-!
# Sets of schemas only grow

A set gains a schema in one way only: by an insertion that finds the name free.  Whatever loads
definitions, from a text, a file, a directory or many of them, is a row of such insertions, so the
schemas that were there stay in front and no name comes twice.
-/

namespace CommandSchema.SchemaSet

variable {s s' : SchemaSet} {x : Schema}

/-! ## One insertion -/

theorem contains_eq_true_iff (s : SchemaSet) (name : String) :
    s.contains name = true ↔ name ∈ s.names := by
  rw [contains, get?, List.find?_isSome, names, List.mem_map]
  simp only [beq_iff_eq]

theorem insert_of_fresh (h : x.name ∉ s.names) :
    s.insert x = .ok { s with schemas := s.schemas ++ [x] } := by
  rw [insert, if_neg]
  rwa [contains_eq_true_iff]

theorem insert_of_taken (h : x.name ∈ s.names) :
    s.insert x = .error (.duplicateSchema x.name) := by
  rw [insert, if_pos ((s.contains_eq_true_iff _).mpr h)]

theorem insert_eq_ok_iff :
    s.insert x = .ok s' ↔ x.name ∉ s.names ∧ s' = { s with schemas := s.schemas ++ [x] } := by
  by_cases h : x.name ∈ s.names
  · rw [insert_of_taken h]
    simp [h]
  · rw [insert_of_fresh h]
    simp [h, eq_comm]

/-! ## Rows of insertions -/

/-- Insertions succeed if their names are free and distinct, and leave their schemas behind the
others, in order. -/
theorem foldlM_insert_eq_ok_iff {xs : List Schema} :
    xs.foldlM insert s = .ok s' ↔ (xs.map Schema.name).Nodup ∧
      s.names.Disjoint (xs.map Schema.name) ∧ s' = { s with schemas := s.schemas ++ xs } := by
  induction xs generalizing s with
  | nil =>
      rw [List.append_nil]
      exact ⟨fun h => ⟨.nil, List.disjoint_nil_right _, (Except.ok.inj h).symm⟩,
        fun h => congrArg Except.ok h.2.2.symm⟩
  | cons x xs ih =>
      rw [List.foldlM_cons]
      by_cases hfresh : x.name ∈ s.names
      · rw [insert_of_taken hfresh]
        refine iff_of_false nofun fun h => ?_
        exact h.2.1 hfresh List.mem_cons_self
      · rw [insert_of_fresh hfresh, ok_bind, ih]
        have hnames : ({ s with schemas := s.schemas ++ [x] } : SchemaSet).names =
            s.names ++ [x.name] := by rw [names, List.map_append]; rfl
        rw [hnames, List.map_cons, List.nodup_cons, List.disjoint_append_left,
          List.singleton_disjoint, List.disjoint_cons_right, List.append_assoc]
        simp only [hfresh, not_false_iff, true_and, List.singleton_append]
        constructor
        · rintro ⟨hdistinct, ⟨hdisjoint, hx⟩, hs'⟩
          exact ⟨⟨hx, hdistinct⟩, hdisjoint, hs'⟩
        · rintro ⟨⟨hx, hdistinct⟩, hdisjoint, hs'⟩
          exact ⟨hdistinct, ⟨hdisjoint, hx⟩, hs'⟩

theorem eq_of_foldlM_insert {xs : List Schema} (h : xs.foldlM insert s = .ok s') :
    s' = { s with schemas := s.schemas ++ xs } :=
  (foldlM_insert_eq_ok_iff.mp h).2.2

/-- The second set is the first with more schemas, each inserted under a free name. -/
def Grows (s s' : SchemaSet) : Prop :=
  ∃ xs : List Schema, xs.foldlM insert s = .ok s'

theorem Grows.refl (s : SchemaSet) : s.Grows s :=
  ⟨[], rfl⟩

theorem Grows.trans {s'' : SchemaSet} (h : s.Grows s') (h' : s'.Grows s'') : s.Grows s'' := by
  obtain ⟨xs, hxs⟩ := h
  obtain ⟨ys, hys⟩ := h'
  refine ⟨xs ++ ys, ?_⟩
  rw [List.foldlM_append, hxs]
  exact hys

/-- Steps that each grow a set grow it together. -/
theorem Grows.of_foldlM {α : Type} {step : SchemaSet → α → Except LoadError SchemaSet}
    (hstep : ∀ s a s', step s a = .ok s' → s.Grows s') {as : List α}
    (h : as.foldlM step s = .ok s') : s.Grows s' := by
  refine invariant_of_foldlM ?_ (Grows.refl s) h
  intro next a s' hgrows hnext
  exact hgrows.trans (hstep next a s' hnext)

theorem nodup_names_of_insert (hs : s.names.Nodup) (h : s.insert x = .ok s') :
    s'.names.Nodup := by
  obtain ⟨hfresh, rfl⟩ := insert_eq_ok_iff.mp h
  rw [names, List.map_append, List.map_singleton]
  exact hs.append (List.nodup_singleton _) (List.disjoint_singleton.mpr hfresh)

theorem Grows.nodup_names (h : s.Grows s') (hs : s.names.Nodup) : s'.names.Nodup := by
  obtain ⟨xs, hxs⟩ := h
  exact invariant_of_foldlM (fun _ _ _ => nodup_names_of_insert) hs hxs

theorem Grows.origin (h : s.Grows s') : s'.origin = s.origin := by
  obtain ⟨xs, hxs⟩ := h
  rw [eq_of_foldlM_insert hxs]

/-- Where the schemas come from does not matter for an insertion. -/
theorem Grows.withOrigin (h : s.Grows s') (origin : Origin) :
    ({ s with origin := origin } : SchemaSet).Grows { s' with origin := origin } := by
  obtain ⟨xs, hxs⟩ := h
  obtain ⟨hdistinct, hfresh, rfl⟩ := foldlM_insert_eq_ok_iff.mp hxs
  exact ⟨xs, foldlM_insert_eq_ok_iff.mpr ⟨hdistinct, hfresh, rfl⟩⟩

/-! ## Loading -/

/-- The definitions of a file become schemas one by one, and these are inserted. -/
theorem exists_inserts_of_extend {file : DefinitionFile} (h : s.extend file = .ok s') :
    ∃ xs : List Schema, List.Forall₂ (fun d x => d.toSchema = .ok x) file.schemas xs ∧
      xs.foldlM insert s = .ok s' := by
  unfold extend at h
  generalize file.schemas = ds at h ⊢
  induction ds generalizing s with
  | nil => exact ⟨[], .nil, h⟩
  | cons d ds ih =>
      rw [List.foldlM_cons] at h
      obtain ⟨next, hnext, h⟩ := ok_of_bind h
      obtain ⟨x, hx, hinsert⟩ := ok_of_bind hnext
      obtain ⟨xs, hxs, hrest⟩ := ih h
      refine ⟨x :: xs, .cons (ok_of_mapError hx) hxs, ?_⟩
      rw [List.foldlM_cons, hinsert]
      exact hrest

theorem extendText_of_decodeFile {format : DefinitionFormat} {text : String}
    {file : DefinitionFile} (h : format.decodeFile text = .ok file) (s : SchemaSet) :
    s.extendText format text = s.extend file := by
  rw [extendText, h]
  rfl

theorem Grows.of_extendText {format : DefinitionFormat} {text : String}
    (h : s.extendText format text = .ok s') : s.Grows s' := by
  obtain ⟨file, -, h⟩ := ok_of_bind h
  obtain ⟨xs, -, hxs⟩ := exists_inserts_of_extend h
  exact ⟨xs, hxs⟩

variable {t : FileTree} {path : Path}

theorem Grows.of_loadFile (h : s.loadFile t path = .ok s') : s.Grows s' := by
  unfold loadFile at h
  split at h
  · cases h
  · obtain ⟨text, -, h⟩ := ok_of_bind h
    exact .of_extendText h

theorem Grows.of_loadDirectory (h : s.loadDirectory t path = .ok s') : s.Grows s' := by
  obtain ⟨entries, -, h⟩ := ok_of_bind h
  refine .of_foldlM ?_ h
  intro s name s' hload
  exact .of_loadFile hload

theorem Grows.of_loadPath {loaded loaded' : SchemaSet × List Origin}
    (h : loadPath t loaded path = .ok loaded') : loaded.1.Grows loaded'.1 := by
  unfold loadPath at h
  by_cases hdirectory : t.isDirectory path = true
  · simp only [hdirectory, if_true] at h
    obtain ⟨next, hnext, h⟩ := ok_of_bind h
    obtain rfl := Except.ok.inj h
    exact .of_loadDirectory hnext
  · simp only [hdirectory] at h
    obtain ⟨next, hnext, h⟩ := ok_of_bind h
    obtain rfl := Except.ok.inj h
    exact .of_loadFile hnext

/-- The sets that are at hand before anything is inserted by hand: one without schemas, or one that
definitions have been loaded into. -/
inductive Loaded : SchemaSet → Prop
  | none (origin : Origin) : Loaded (empty origin)
  | text {s : SchemaSet} (format : DefinitionFormat) (text : String)
      (h : ofText format text = .ok s) : Loaded s
  | file {s : SchemaSet} (t : FileTree) (path : Path) (h : ofFile t path = .ok s) : Loaded s
  | directory {s : SchemaSet} (t : FileTree) (path : Path) (h : ofDirectory t path = .ok s) :
      Loaded s
  | paths {s : SchemaSet} (t : FileTree) (paths : List Path) (h : ofPaths t paths = .ok s) :
      Loaded s

theorem Loaded.grows (h : s.Loaded) : (empty s.origin).Grows s := by
  have hown : ∀ {origin : Origin}, (empty origin).Grows s → (empty s.origin).Grows s := by
    intro origin hgrows
    rwa [hgrows.origin]
  cases h with
  | none origin => exact .refl _
  | text format text h => exact hown (.of_extendText h)
  | file t path h => exact hown (.of_loadFile h)
  | directory t path h => exact hown (.of_loadDirectory h)
  | paths t paths h =>
      obtain ⟨⟨s', origins⟩, hload, h⟩ := ok_of_bind h
      obtain rfl := Except.ok.inj h
      have hstep : ∀ loaded path loaded', (empty (.multiple [])).Grows loaded.1 →
          loadPath t loaded path = .ok loaded' → (empty (.multiple [])).Grows loaded'.1 := by
        intro loaded path loaded' hloaded hpath
        exact hloaded.trans (.of_loadPath hpath)
      have hgrows : (empty (.multiple [])).Grows s' :=
        invariant_of_foldlM hstep (Grows.refl _) hload
      exact hgrows.withOrigin (.multiple origins)

theorem Loaded.nodup_names (h : s.Loaded) : s.names.Nodup :=
  h.grows.nodup_names List.nodup_nil

end CommandSchema.SchemaSet
