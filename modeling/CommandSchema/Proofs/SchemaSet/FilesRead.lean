import CommandSchema.Proofs.Files.Change
import CommandSchema.SchemaSet.Loading

/-!
# The files that loading reads

Loading a path reads the file that it leads to, or the definition files in the directory that it
leads to.  What it gives depends on these files only, in whatever order the directory lists them.
-/

namespace CommandSchema

open FileTree

namespace SchemaSet

variable {t t' : FileTree} {s s' : SchemaSet} {p : Path} {l m : Location}

/-! ## Loading as reading files -/

/-- The files that are read where a path is loaded. -/
def definitionFiles (t : FileTree) (p : Path) : Except IoError (List Path) :=
  if t.isDirectory p then (definitionNames t p).map fun names => names.map p.join else .ok [p]

theorem loadFile_eq_ok_iff :
    s.loadFile t p = .ok s' ↔ ∃ format text, DefinitionFormat.ofPath? p = some format ∧
      t.readText p = .ok text ∧ s.extendText format text = .ok s' := by
  rw [loadFile]
  constructor
  · intro h
    cases hformat : DefinitionFormat.ofPath? p with
    | none =>
        rw [hformat] at h
        cases h
    | some format =>
        rw [hformat] at h
        obtain ⟨text, htext, h⟩ := ok_of_bind h
        exact ⟨format, text, rfl, ok_of_mapError htext, h⟩
  · rintro ⟨format, text, hformat, htext, h⟩
    rw [hformat, htext]
    exact h

/-- What is kept of where the schemas of a path come from. -/
def originOf (t : FileTree) (p : Path) : Origin :=
  if t.isDirectory p then .directory p else .file p

/-- A path is loaded by loading the files that are read for it. -/
theorem loadPath_eq (t : FileTree) (s : SchemaSet) (origins : List Origin) (p : Path) :
    loadPath t (s, origins) p =
      ((definitionFiles t p).mapError LoadError.io >>= fun files =>
        files.foldlM (loadFile t) s >>= fun s' => .ok (s', origins ++ [originOf t p])) := by
  by_cases hdirectory : t.isDirectory p = true
  · have hload : loadPath t (s, origins) p =
        (s.loadDirectory t p >>= fun s' => .ok (s', origins ++ [.directory p])) :=
      if_pos hdirectory
    rw [hload, loadDirectory, definitionFiles, if_pos hdirectory, originOf, if_pos hdirectory]
    cases definitionNames t p with
    | error e => rfl
    | ok names =>
        change (names.foldlM _ s >>= _) = ((names.map p.join).foldlM (loadFile t) s >>= _)
        rw [List.foldlM_map]
  · have hload : loadPath t (s, origins) p =
        (s.loadFile t p >>= fun s' => .ok (s', origins ++ [.file p])) := if_neg hdirectory
    rw [hload, definitionFiles, if_neg hdirectory, originOf, if_neg hdirectory]
    change _ = ([p].foldlM (loadFile t) s >>= _)
    rw [List.foldlM_cons]
    cases s.loadFile t p <;> rfl

theorem ofPaths_singleton_eq_ok_iff {set : SchemaSet} :
    ofPaths t [p] = .ok set ↔ ∃ files s, definitionFiles t p = .ok files ∧
      files.foldlM (loadFile t) (empty (.multiple [])) = .ok s ∧
        set = { s with origin := .multiple [originOf t p] } := by
  rw [ofPaths, List.foldlM_cons, loadPath_eq]
  constructor
  · intro h
    obtain ⟨loaded, h, hset⟩ := ok_of_bind h
    obtain ⟨first, hfirst, hlast⟩ := ok_of_bind h
    obtain rfl := Except.ok.inj hlast
    obtain ⟨files, hfiles, hfirst⟩ := ok_of_bind hfirst
    obtain ⟨s, hs, hfirst⟩ := ok_of_bind hfirst
    obtain rfl := Except.ok.inj hfirst
    exact ⟨files, s, ok_of_mapError hfiles, hs, (Except.ok.inj hset).symm⟩
  · rintro ⟨files, s, hfiles, hs, rfl⟩
    have hfirst : (definitionFiles t p).mapError LoadError.io = .ok files := by rw [hfiles]; rfl
    rw [hfirst, ok_bind, hs]
    rfl

/-! ## The definition files of a directory -/

/-- A name that stands for a definition file, in a directory that a path leads to. -/
structure IsDefinition (p : Path) (name : String) : Prop where
  valid : IsName name
  short : (p.join name).text.utf8ByteSize < 4096
  format : (DefinitionFormat.ofPath? (p.join name)).isSome = true

theorem pairwise_mergeSort_names (names : List String) :
    (names.mergeSort fun a b => a ≤ b).Pairwise (· ≤ ·) := by
  refine (List.pairwise_mergeSort ?_ ?_ _).imp of_decide_eq_true
  · intro a b c hab hbc
    exact decide_eq_true (String.le_trans (of_decide_eq_true hab) (of_decide_eq_true hbc))
  · intro a b
    simpa using String.le_total a b

/-- There is one way to sort names. -/
theorem mergeSort_names_eq {names sorted : List String} (hsorted : sorted.Pairwise (· ≤ ·))
    (h : sorted.Perm names) : (names.mergeSort fun a b => a ≤ b) = sorted :=
  List.Perm.eq_of_pairwise (fun _ _ _ _ hab hba => String.le_antisymm hab hba)
    (pairwise_mergeSort_names names) hsorted ((List.mergeSort_perm _ _).trans h.symm)

theorem exists_definitionNames (ht : t.WellNamed) (hp : t.locate p = .ok l)
    (hl : t.node? l = some .directory) :
    ∃ names, definitionNames t p = .ok names ∧ names.Nodup ∧ names.Pairwise (· ≤ ·) ∧
      ∀ name, name ∈ names ↔
        IsDefinition p name ∧ ∃ bytes, t.node? (l ++ [name]) = some (.file bytes) := by
  obtain ⟨names, hnames, hdistinct, hmem⟩ := exists_entries hp hl
  have hdefinition : ∀ name, (name ∈ names ∧ t.isFile (p.join name) = true ∧
      (DefinitionFormat.ofPath? (p.join name)).isSome = true) ↔
        IsDefinition p name ∧ ∃ bytes, t.node? (l ++ [name]) = some (.file bytes) := by
    intro name
    have hchild : ∀ node, (l ++ [name], node) ∈ t.nodes ↔ t.node? (l ++ [name]) = some node :=
      fun node => ht.mem_nodes_iff (by simp)
    rw [hmem, isFile_iff]
    constructor
    · rintro ⟨⟨node, hnode⟩, ⟨m, bytes, hm, hfile⟩, hformat⟩
      have hname : IsName name := ht.nodes _ hnode name (by simp)
      obtain ⟨hshort, rfl⟩ := (locate_join_eq_ok_iff hname hp hl).mp hm
      exact ⟨⟨hname, hshort, hformat⟩, bytes, hfile⟩
    · rintro ⟨⟨hname, hshort, hformat⟩, bytes, hfile⟩
      exact ⟨⟨_, (hchild _).mpr hfile⟩,
        ⟨_, bytes, (locate_join_eq_ok_iff hname hp hl).mpr ⟨hshort, rfl⟩, hfile⟩, hformat⟩
  refine ⟨_, by rw [definitionNames, hnames]; rfl, ?_, ?_, ?_⟩
  · exact (List.mergeSort_perm _ _).nodup_iff.mpr ((hdistinct ht).filter _)
  · exact pairwise_mergeSort_names _
  · intro name
    rw [List.mem_mergeSort, List.mem_filter, Bool.and_eq_true, hdefinition]

theorem definitionFiles_of_directory (hp : t.locate p = .ok m) (hm : t.node? m = some .directory) :
    definitionFiles t p = (definitionNames t p).map fun names => names.map p.join :=
  if_pos (isDirectory_iff.mpr ⟨m, hp, hm⟩)

theorem isDirectory_eq_false (hp : t.locate p = .ok m) (hm : t.node? m ≠ some .directory) :
    t.isDirectory p = false := by
  rw [Bool.eq_false_iff]
  intro hdirectory
  obtain ⟨m', hm', hnode⟩ := isDirectory_iff.mp hdirectory
  obtain rfl := Except.ok.inj (hp.symm.trans hm')
  exact hm hnode

theorem definitionFiles_of_not_directory (h : t.isDirectory p = false) :
    definitionFiles t p = .ok [p] :=
  if_neg (by simp [h])

/-! ## Locations that are read -/

/-- Whether loading a path reads what is at a location. -/
def ReadsAt (t : FileTree) (p : Path) (l : Location) : Prop :=
  ∃ files, definitionFiles t p = .ok files ∧ ∃ file ∈ files, t.locate file = .ok l

theorem readsAt_directory_iff (ht : t.WellNamed) (hp : t.locate p = .ok m)
    (hm : t.node? m = some .directory) :
    ReadsAt t p l ↔ ∃ name, l = m ++ [name] ∧ IsDefinition p name ∧
      ∃ bytes, t.node? (m ++ [name]) = some (.file bytes) := by
  obtain ⟨names, hnames, -, -, hmem⟩ := exists_definitionNames ht hp hm
  have hlocate : ∀ name ∈ names, t.locate (p.join name) = .ok l ↔ l = m ++ [name] := by
    intro name hname
    have hdefinition := ((hmem name).mp hname).1
    rw [locate_join_eq_ok_iff hdefinition.valid hp hm]
    exact and_iff_right hdefinition.short
  rw [ReadsAt, definitionFiles_of_directory hp hm, hnames]
  constructor
  · rintro ⟨files, hfiles, file, hfile, hl⟩
    obtain rfl := Except.ok.inj hfiles
    obtain ⟨name, hname, rfl⟩ := List.mem_map.mp hfile
    exact ⟨name, (hlocate name hname).mp hl, (hmem name).mp hname⟩
  · rintro ⟨name, hl, hname⟩
    have hname := (hmem name).mpr hname
    exact ⟨_, rfl, _, List.mem_map_of_mem hname, (hlocate name hname).mpr hl⟩

theorem readsAt_file_iff (hp : t.locate p = .ok m) (hm : t.node? m ≠ some .directory) :
    ReadsAt t p l ↔ l = m := by
  rw [ReadsAt, definitionFiles_of_not_directory (isDirectory_eq_false hp hm)]
  constructor
  · rintro ⟨files, hfiles, file, hfile, hl⟩
    obtain rfl := Except.ok.inj hfiles
    obtain rfl := List.mem_singleton.mp hfile
    exact Except.ok.inj (hl.symm.trans hp)
  · rintro rfl
    exact ⟨[p], rfl, p, List.mem_singleton_self p, hp⟩

/-- A path that can be loaded leads to a directory or to a file that can be read. -/
theorem exists_node_of_ofPaths {set : SchemaSet} (h : ofPaths t [p] = .ok set) :
    ∃ m, t.locate p = .ok m ∧
      (t.node? m = some .directory ∨ ∃ bytes, t.node? m = some (.file bytes)) := by
  obtain ⟨files, s, hfiles, hs, -⟩ := ofPaths_singleton_eq_ok_iff.mp h
  by_cases hdirectory : t.isDirectory p = true
  · obtain ⟨m, hm, hnode⟩ := isDirectory_iff.mp hdirectory
    exact ⟨m, hm, .inl hnode⟩
  · rw [definitionFiles_of_not_directory (Bool.not_eq_true _ ▸ hdirectory)] at hfiles
    obtain rfl := Except.ok.inj hfiles
    rw [List.foldlM_cons] at hs
    obtain ⟨first, hfirst, -⟩ := ok_of_bind hs
    obtain ⟨-, text, -, htext, -⟩ := loadFile_eq_ok_iff.mp hfirst
    obtain ⟨m, hm, hnode⟩ := readText_eq_ok_iff.mp htext
    exact ⟨m, hm, .inr ⟨_, hnode⟩⟩

/-! ## Changes that loading does not see -/

section Congruence

variable (ht : t.WellNamed) (ht' : t'.WellNamed) (h : t.SameBut l t')

include h in
theorem loadFile_congr {file : Path} (hfile : t.locate file ≠ .ok l)
    (hload : s.loadFile t file = .ok s') : s.loadFile t' file = .ok s' := by
  obtain ⟨format, text, hformat, htext, hload⟩ := loadFile_eq_ok_iff.mp hload
  obtain ⟨m, hm, hnode⟩ := readText_eq_ok_iff.mp htext
  have hne : m ≠ l := by
    rintro rfl
    exact hfile hm
  have htext' : t'.readText file = .ok text :=
    readText_eq_ok_iff.mpr ⟨m, h.locate hm, (h.file_iff m hne _).mpr hnode⟩
  exact loadFile_eq_ok_iff.mpr ⟨format, text, hformat, htext', hload⟩

include ht ht' h in
/-- A directory lists the same definition files if the place that differs is read neither before
nor after. -/
theorem definitionNames_congr (hread : ¬ReadsAt t p l) (hread' : ¬ReadsAt t' p l)
    (hp : t.locate p = .ok m) (hm : t.node? m = some .directory) :
    definitionNames t' p = definitionNames t p := by
  have hp' := h.locate hp
  have hm' := h.directory m hm
  obtain ⟨names, hnames, hdistinct, hsorted, hmem⟩ := exists_definitionNames ht hp hm
  obtain ⟨names', hnames', hdistinct', hsorted', hmem'⟩ := exists_definitionNames ht' hp' hm'
  have hsame : ∀ name, name ∈ names' ↔ name ∈ names := by
    intro name
    rw [hmem, hmem']
    by_cases hl : m ++ [name] = l
    · -- neither directory holds a definition file here
      constructor
      · exact fun hname => absurd ((readsAt_directory_iff ht' hp' hm').mpr ⟨name, hl.symm, hname⟩)
          hread'
      · exact fun hname => absurd ((readsAt_directory_iff ht hp hm).mpr ⟨name, hl.symm, hname⟩)
          hread
    · simp only [h.file_iff _ hl]
  have hperm : names'.Perm names := (List.perm_ext_iff_of_nodup hdistinct' hdistinct).mpr hsame
  have heq : names' = names := List.Perm.eq_of_pairwise
    (fun _ _ _ _ hab hba => String.le_antisymm hab hba) hsorted' hsorted hperm
  rw [hnames, hnames', heq]

include ht ht' h in
/-- What is loaded stays the same if the place that differs is read neither before nor after. -/
theorem ofPaths_congr {set : SchemaSet} (hread : ¬ReadsAt t p l) (hread' : ¬ReadsAt t' p l)
    (hset : ofPaths t [p] = .ok set) : ofPaths t' [p] = .ok set := by
  obtain ⟨m, hp, hnode⟩ := exists_node_of_ofPaths hset
  obtain ⟨files, s, hfiles, hs, rfl⟩ := ofPaths_singleton_eq_ok_iff.mp hset
  have hs' : files.foldlM (loadFile t') (empty (.multiple [])) = .ok s := by
    refine foldlM_eq_ok_of_steps (fun file hfile _ _ => loadFile_congr h ?_) hs
    exact fun hl => hread ⟨files, hfiles, file, hfile, hl⟩
  have hunseen : definitionFiles t' p = .ok files ∧ originOf t' p = originOf t p := by
    rcases hnode with hm | ⟨bytes, hm⟩
    · have hdirectory := isDirectory_iff.mpr ⟨m, hp, hm⟩
      have hdirectory' := isDirectory_iff.mpr ⟨m, h.locate hp, h.directory m hm⟩
      refine ⟨?_, by rw [originOf, originOf, hdirectory, hdirectory']⟩
      rw [definitionFiles_of_directory (h.locate hp) (h.directory m hm),
        definitionNames_congr ht ht' h hread hread' hp hm, ← definitionFiles_of_directory hp hm,
        hfiles]
    · have hfile := ne_directory_of_file hm
      have hne : m ≠ l := fun hl => hread ((readsAt_file_iff hp hfile).mpr hl.symm)
      have hfile' := ne_directory_of_file ((h.file_iff m hne bytes).mpr hm)
      have hother := isDirectory_eq_false hp hfile
      have hother' := isDirectory_eq_false (h.locate hp) hfile'
      refine ⟨?_, by rw [originOf, originOf, hother, hother']⟩
      rw [definitionFiles_of_not_directory hother', ← definitionFiles_of_not_directory hother,
        hfiles]
  exact ofPaths_singleton_eq_ok_iff.mpr ⟨files, s, hunseen.1, hs', by rw [hunseen.2]⟩

end Congruence

end SchemaSet

end CommandSchema
