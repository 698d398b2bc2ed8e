import CommandSchema.Proofs.Files.Listing
import CommandSchema.Proofs.SchemaSet.FilesRead
import CommandSchema.Proofs.SchemaSet.Growth

/-!
# Loading as a merge

Whatever loads definitions inserts a row of schemas that is the same for every set, and may then
fail.  So what paths give is what each of them gives, one after the other, and what a directory
gives does not depend on the order in which it is listed.
-/

namespace CommandSchema

open FileTree

namespace SchemaSet

variable {s s' : SchemaSet} {t t' : FileTree} {p : Path}

/-! ## Rows of insertions -/

theorem schemas_foldlM_insert (xs : List Schema) {r : SchemaSet} (h : s.schemas = r.schemas) :
    (xs.foldlM insert s).map schemas = (xs.foldlM insert r).map schemas := by
  induction xs generalizing s r with
  | nil => exact congrArg Except.ok h
  | cons x xs ih =>
      -- an insertion asks for the names only
      have hnames : s.names = r.names := congrArg (List.map Schema.name) h
      rw [List.foldlM_cons, List.foldlM_cons]
      by_cases hfresh : x.name ∈ s.names
      · rw [insert_of_taken hfresh, insert_of_taken (hnames ▸ hfresh)]
      · rw [insert_of_fresh hfresh, insert_of_fresh (hnames ▸ hfresh)]
        exact ih (congrArg (· ++ [x]) h)

/-- Schemas to insert one after the other, and the fault at their end, if there is one. -/
structure Row where
  schemas : List Schema
  fault : Option LoadError

namespace Row

/-- The set with the schemas of a row. -/
def merge (row : Row) (s : SchemaSet) : Except LoadError SchemaSet := do
  let s ← row.schemas.foldlM insert s
  match row.fault with
  | none => return s
  | some e => throw e

/-- A row and another one behind it, which is reached unless the first fails. -/
def append (row next : Row) : Row :=
  match row.fault with
  | none => ⟨row.schemas ++ next.schemas, next.fault⟩
  | some e => ⟨row.schemas, some e⟩

theorem merge_append (row next : Row) (s : SchemaSet) :
    (row.append next).merge s = row.merge s >>= next.merge := by
  obtain ⟨xs, fault⟩ := row
  cases fault with
  | none =>
      change ((xs ++ next.schemas).foldlM insert s >>= _) = (xs.foldlM insert s >>= _) >>= _
      rw [List.foldlM_append]
      cases xs.foldlM insert s <;> rfl
  | some e =>
      -- the second row is not reached, whether an insertion fails or the first row ends
      change (xs.foldlM insert s >>= _) = (xs.foldlM insert s >>= _) >>= _
      cases xs.foldlM insert s <;> rfl

theorem merge_eq_ok_iff {row : Row} :
    row.merge s = .ok s' ↔ row.fault = none ∧ (row.schemas.map Schema.name).Nodup ∧
      s.names.Disjoint (row.schemas.map Schema.name) ∧
      s' = { s with schemas := s.schemas ++ row.schemas } := by
  rw [← foldlM_insert_eq_ok_iff]
  obtain ⟨xs, fault⟩ := row
  constructor
  · intro h
    obtain ⟨last, hlast, h⟩ := ok_of_bind h
    cases fault with
    | none => exact ⟨rfl, hlast.trans h⟩
    | some e => cases h
  · rintro ⟨rfl, h⟩
    rw [merge, h]
    rfl

/-- Where the schemas of a set come from makes no difference. -/
theorem schemas_merge (row : Row) {r : SchemaSet} (h : s.schemas = r.schemas) :
    (row.merge s).map SchemaSet.schemas = (row.merge r).map SchemaSet.schemas := by
  have hinserted := schemas_foldlM_insert row.schemas h
  rw [merge, merge]
  cases hs : row.schemas.foldlM insert s <;> cases hr : row.schemas.foldlM insert r <;>
    rw [hs, hr] at hinserted
  · exact congrArg Except.error (Except.error.inj hinserted)
  · cases hinserted
  · cases hinserted
  · cases row.fault with
    | none => exact hinserted
    | some e => rfl

end Row

/-! ## Merges -/

/-- Inserting the same row of schemas into every set. -/
def IsMerge (f : SchemaSet → Except LoadError SchemaSet) : Prop :=
  ∃ row : Row, ∀ s, f s = row.merge s

namespace IsMerge

variable {f g : SchemaSet → Except LoadError SchemaSet}

theorem ok : IsMerge .ok :=
  ⟨⟨[], none⟩, fun _ => rfl⟩

theorem error (e : LoadError) : IsMerge fun _ => .error e :=
  ⟨⟨[], some e⟩, fun _ => rfl⟩

theorem bind (hf : IsMerge f) (hg : IsMerge g) : IsMerge fun s => f s >>= g := by
  obtain ⟨row, hrow⟩ := hf
  obtain ⟨next, hnext⟩ := hg
  refine ⟨row.append next, fun s => ?_⟩
  change f s >>= g = _
  rw [Row.merge_append, hrow]
  exact congrArg _ (funext hnext)

/-- What comes before, and does not depend on the set, decides on the row. -/
theorem after {α : Type} {f : α → SchemaSet → Except LoadError SchemaSet} (x : Except LoadError α)
    (hf : ∀ a, IsMerge (f a)) : IsMerge fun s => x >>= fun a => f a s := by
  cases x with
  | error e => exact .error e
  | ok a => exact hf a

theorem foldlM {α : Type} {step : SchemaSet → α → Except LoadError SchemaSet}
    (hstep : ∀ a, IsMerge fun s => step s a) (as : List α) :
    IsMerge fun s => as.foldlM step s := by
  induction as with
  | nil => exact .ok
  | cons a as ih =>
      simp only [List.foldlM_cons]
      exact (hstep a).bind ih

/-- What a merge adds to one set it adds to every set in which the names are free. -/
theorem exists_added (hf : IsMerge f) (h : f s = .ok s') :
    ∃ xs : List Schema, s.names.Disjoint (xs.map Schema.name) ∧
      s' = { s with schemas := s.schemas ++ xs } ∧
      ∀ r : SchemaSet, r.names.Disjoint (xs.map Schema.name) →
        f r = .ok { r with schemas := r.schemas ++ xs } := by
  obtain ⟨row, hrow⟩ := hf
  rw [hrow] at h
  obtain ⟨hfault, hdistinct, hfresh, hs'⟩ := Row.merge_eq_ok_iff.mp h
  refine ⟨row.schemas, hfresh, hs', fun r hr => ?_⟩
  rw [hrow]
  exact Row.merge_eq_ok_iff.mpr ⟨hfault, hdistinct, hr, rfl⟩

theorem schemas_eq (hf : IsMerge f) {r : SchemaSet} (h : s.schemas = r.schemas) :
    (f s).map schemas = (f r).map schemas := by
  obtain ⟨row, hrow⟩ := hf
  rw [hrow, hrow]
  exact row.schemas_merge h

end IsMerge

/-! ## Loading -/

theorem isMerge_insert (x : Schema) : IsMerge fun s => s.insert x := by
  refine ⟨⟨[x], none⟩, fun s => ?_⟩
  change s.insert x = ([x].foldlM insert s >>= _)
  rw [List.foldlM_cons]
  cases s.insert x <;> rfl

theorem isMerge_define (d : SchemaDefinition) : IsMerge fun s => s.define d :=
  .after _ isMerge_insert

theorem isMerge_extendText (format : DefinitionFormat) (text : String) :
    IsMerge fun s => s.extendText format text :=
  .after _ fun file => .foldlM isMerge_define file.schemas

theorem isMerge_loadFile (t : FileTree) (p : Path) : IsMerge fun s => s.loadFile t p := by
  unfold loadFile
  cases DefinitionFormat.ofPath? p with
  | none => exact .error _
  | some format => exact .after _ (isMerge_extendText format)

theorem isMerge_loadDirectory (t : FileTree) (p : Path) :
    IsMerge fun s => s.loadDirectory t p :=
  .after _ (.foldlM fun name => isMerge_loadFile t (p.join name))

/-- The set with the schemas of a file or of a directory. -/
def load (t : FileTree) (s : SchemaSet) (p : Path) : Except LoadError SchemaSet :=
  if t.isDirectory p then s.loadDirectory t p else s.loadFile t p

theorem isMerge_load (t : FileTree) (p : Path) : IsMerge fun s => s.load t p := by
  unfold load
  split_ifs
  · exact isMerge_loadDirectory t p
  · exact isMerge_loadFile t p

theorem load_eq_ok_of_file {l : Location} {format : DefinitionFormat} {text : String}
    (hp : t.locate p = .ok l) (hnode : t.node? l = some (.file text.toUTF8))
    (hformat : DefinitionFormat.ofPath? p = some format)
    (h : s.extendText format text = .ok s') : s.load t p = .ok s' := by
  have hother := isDirectory_eq_false hp (ne_directory_of_file hnode)
  rw [load, if_neg (by rw [hother]; decide)]
  exact loadFile_eq_ok_iff.mpr ⟨format, text, hformat, readText_eq_ok_iff.mpr ⟨l, hp, hnode⟩, h⟩

theorem foldlM_loadPath (t : FileTree) (ps : List Path) (s : SchemaSet) (origins : List Origin) :
    ps.foldlM (loadPath t) (s, origins) =
      (ps.foldlM (load t) s).map fun s' => (s', origins ++ ps.map (originOf t)) := by
  induction ps generalizing s origins with
  | nil =>
      rw [List.map_nil, List.append_nil]
      rfl
  | cons p ps ih =>
      have hfirst : loadPath t (s, origins) p =
          (s.load t p).map fun s' => (s', origins ++ [originOf t p]) := by
        unfold loadPath load originOf
        dsimp only
        split_ifs
        · cases s.loadDirectory t p <;> rfl
        · cases s.loadFile t p <;> rfl
      rw [List.foldlM_cons, List.foldlM_cons, hfirst]
      cases s.load t p with
      | error e => rfl
      | ok next =>
          change ps.foldlM (loadPath t) (next, origins ++ [originOf t p]) = _
          rw [ih, List.append_assoc, List.singleton_append, List.map_cons]
          rfl

/-- Paths are loaded one after the other; afterwards the set is told where they led. -/
theorem ofPaths_eq (t : FileTree) (ps : List Path) :
    ofPaths t ps = (ps.foldlM (load t) (empty (.multiple []))).map fun s =>
      { s with origin := .multiple (ps.map (originOf t)) } := by
  rw [ofPaths, foldlM_loadPath, List.nil_append]
  cases ps.foldlM (load t) (empty (.multiple [])) <;> rfl

theorem schemas_ofPaths (t : FileTree) (ps : List Path) (origin : Origin) :
    (ofPaths t ps).map schemas = (ps.foldlM (load t) (empty origin)).map schemas := by
  have hmerge := IsMerge.foldlM (isMerge_load t) ps
  have hempty : (empty (.multiple [])).schemas = (empty origin).schemas := rfl
  rw [ofPaths_eq, ← hmerge.schemas_eq hempty]
  cases ps.foldlM (load t) (empty (.multiple [])) <;> rfl

/-! ## Directories -/

section Relisted

variable (h : t.Relists t') (ht : t.WellNamed)

include h ht

theorem definitionNames_of_relists (p : Path) : definitionNames t' p = definitionNames t p := by
  rcases h.entries ht p with ⟨e, he, he'⟩ | ⟨names, names', hnames, hnames', hperm⟩
  · rw [definitionNames, definitionNames, he, he']
    rfl
  · have hkept := hperm.filter fun name =>
      t.isFile (p.join name) && (DefinitionFormat.ofPath? (p.join name)).isSome
    rw [definitionNames, definitionNames, hnames, hnames', ok_bind, ok_bind]
    simp only [h.isFile ht]
    exact congrArg Except.ok (mergeSort_names_eq (pairwise_mergeSort_names _)
      ((List.mergeSort_perm _ _).trans hkept.symm))

theorem ofDirectory_of_relists (d : Path) : ofDirectory t' d = ofDirectory t d := by
  have hfile : ∀ s p, loadFile t' s p = loadFile t s p := by
    intro s p
    rw [loadFile, loadFile, h.readText ht]
  rw [ofDirectory, ofDirectory, loadDirectory, loadDirectory, definitionNames_of_relists h ht]
  simp only [hfile]

end Relisted

variable {d : Path} {listed sorted : List String}

/-- The definition files among the names that a directory lists. -/
def definitionsAmong (t : FileTree) (d : Path) (listed : List String) : List String :=
  listed.filter fun name => t.isFile (d.join name) ∧
    (d.join name).extension? ∈ [some "yaml", some "yml", some "json"]

theorem isSome_ofPath?_iff :
    (DefinitionFormat.ofPath? p).isSome = true ↔
      p.extension? ∈ [some "yaml", some "yml", some "json"] := by
  rw [DefinitionFormat.ofPath?]
  split <;> simp_all

theorem definitionNames_eq_ok (hlisted : t.entries d = .ok listed)
    (hsorted : sorted.Pairwise (· ≤ ·)) (hperm : sorted.Perm (definitionsAmong t d listed)) :
    definitionNames t d = .ok sorted := by
  have hkept : definitionsAmong t d listed = listed.filter fun name =>
      t.isFile (d.join name) && (DefinitionFormat.ofPath? (d.join name)).isSome := by
    refine List.filter_congr fun name _ => ?_
    rw [Bool.eq_iff_iff, decide_eq_true_iff, Bool.and_eq_true, isSome_ofPath?_iff]
  rw [definitionNames, hlisted]
  exact congrArg Except.ok (mergeSort_names_eq hsorted (hkept ▸ hperm))

/-- A directory gives what its definition files give, named one by one in the order of their
names. -/
theorem schemas_ofDirectory (hlisted : t.entries d = .ok listed)
    (hsorted : sorted.Pairwise (· ≤ ·)) (hperm : sorted.Perm (definitionsAmong t d listed)) :
    (ofPaths t (sorted.map d.join)).map schemas = (ofDirectory t d).map schemas := by
  have hfile : ∀ name ∈ sorted, ∀ s : SchemaSet,
      s.load t (d.join name) = s.loadFile t (d.join name) := by
    intro name hname s
    have hkept := (List.mem_filter.mp (hperm.subset hname)).2
    exact if_neg (not_isDirectory_of_isFile (of_decide_eq_true hkept).1)
  rw [schemas_ofPaths t _ (.directory d), List.foldlM_map, foldlM_congr hfile, ofDirectory,
    loadDirectory, definitionNames_eq_ok hlisted hsorted hperm]
  rfl

theorem schemas_ofPaths_of_directory (h : t.isDirectory p = true) :
    (ofPaths t [p]).map schemas = (ofDirectory t p).map schemas := by
  rw [schemas_ofPaths t _ (.directory p), List.foldlM_cons, load, if_pos h, ofDirectory]
  cases (empty (.directory p)).loadDirectory t p <;> rfl

theorem schemas_ofPaths_of_file (h : t.isDirectory p = false) :
    (ofPaths t [p]).map schemas = (ofFile t p).map schemas := by
  rw [schemas_ofPaths t _ (.file p), List.foldlM_cons, load, if_neg (by simp [h]), ofFile]
  cases (empty (.file p)).loadFile t p <;> rfl

/-! ## Lists of paths -/

theorem ofPaths_eq_ok_iff {ps : List Path} {set : SchemaSet} :
    ofPaths t ps = .ok set ↔ ∃ s, ps.foldlM (load t) (empty (.multiple [])) = .ok s ∧
      set = { s with origin := .multiple (ps.map (originOf t)) } := by
  rw [ofPaths_eq]
  cases ps.foldlM (load t) (empty (.multiple [])) <;> simp [Except.map, eq_comm]

/-- More paths add to what the first ones give what they would give by themselves. -/
theorem exists_of_ofPaths_append {ps qs : List Path} {set : SchemaSet}
    (h : ofPaths t (ps ++ qs) = .ok set) :
    ∃ front back, ofPaths t ps = .ok front ∧ ofPaths t qs = .ok back ∧
      set.schemas = front.schemas ++ back.schemas ∧ front.names.Disjoint back.names := by
  obtain ⟨s, hs, rfl⟩ := ofPaths_eq_ok_iff.mp h
  rw [List.foldlM_append] at hs
  obtain ⟨first, hfirst, hs⟩ := ok_of_bind hs
  obtain ⟨xs, hdisjoint, rfl, hevery⟩ := (IsMerge.foldlM (isMerge_load t) qs).exists_added hs
  -- the later paths loaded by themselves: in a set without schemas every name is free
  have hsecond := hevery (empty (.multiple [])) (List.disjoint_nil_left _)
  exact ⟨_, _, ofPaths_eq_ok_iff.mpr ⟨first, hfirst, rfl⟩,
    ofPaths_eq_ok_iff.mpr ⟨_, hsecond, rfl⟩, rfl, hdisjoint⟩

theorem ofPaths_append_of_error {ps qs : List Path} {e : LoadError}
    (h : ofPaths t ps = .error e) : ofPaths t (ps ++ qs) = .error e := by
  rw [ofPaths_eq] at h ⊢
  rw [List.foldlM_append]
  cases hfirst : ps.foldlM (load t) (empty (.multiple [])) with
  | ok s =>
      rw [hfirst] at h
      cases h
  | error e' =>
      rw [hfirst] at h
      obtain rfl := Except.error.inj h
      rfl

/-- What is loaded is merged from left to right, whatever order directories are listed in. -/
structure MergesPaths (t : FileTree) : Prop where
  /-- The order of a listing makes no difference, and every order is one that a listing can have. -/
  relisted : ∀ t', t.Relists t' → ∀ d, ofDirectory t' d = ofDirectory t d
  listable : ∀ d (listed listed' : List String), t.entries d = .ok listed → listed'.Perm listed →
    ∃ t', t.Relists t' ∧ t'.entries d = .ok listed'
  /-- A directory is the same as its definition files in the order of their names. -/
  definitions : ∀ d (listed sorted : List String), t.entries d = .ok listed →
    sorted.Pairwise (· ≤ ·) → sorted.Perm (definitionsAmong t d listed) →
      (ofPaths t (sorted.map d.join)).map schemas = (ofDirectory t d).map schemas
  /-- A single path is the same as the file or the directory that it leads to. -/
  file : ∀ p, t.isDirectory p = false → (ofPaths t [p]).map schemas = (ofFile t p).map schemas
  directory : ∀ p, t.isDirectory p = true →
    (ofPaths t [p]).map schemas = (ofDirectory t p).map schemas
  /-- Two lists of paths give what each of them gives, in order and with different names. -/
  append : ∀ ps qs set, ofPaths t (ps ++ qs) = .ok set →
    ∃ front back, ofPaths t ps = .ok front ∧ ofPaths t qs = .ok back ∧
      set.names = front.names ++ back.names ∧ front.names.Disjoint back.names
  /-- The first list of paths that fails decides how loading fails. -/
  fails : ∀ ps qs e, ofPaths t ps = .error e → ofPaths t (ps ++ qs) = .error e

theorem loading_merges (ht : t.WellNamed) : MergesPaths t where
  relisted := fun _ h => ofDirectory_of_relists h ht
  listable := fun _ _ _ => exists_relists ht
  definitions := fun _ _ _ => schemas_ofDirectory
  file := fun _ => schemas_ofPaths_of_file
  directory := fun _ => schemas_ofPaths_of_directory
  append := by
    intro ps qs set h
    obtain ⟨front, back, hfront, hback, hschemas, hdisjoint⟩ := exists_of_ofPaths_append h
    refine ⟨front, back, hfront, hback, ?_, hdisjoint⟩
    rw [names, hschemas, List.map_append, names, names]
  fails := fun _ _ _ => ofPaths_append_of_error

theorem problems_nil : problems [] = [] :=
  rfl

/-- Two schemas without fields, and the texts that define them. -/
def alpha : Schema where
  name := "alpha"
  description := none
  fields := []
  name_not_blank := by decide
  consistent := problems_nil

def beta : Schema where
  name := "beta"
  description := none
  fields := []
  name_not_blank := by decide
  consistent := problems_nil

def alphaText : String :=
  "\x7b\"schemas\":[\x7b\"name\":\"alpha\",\"fields\":[]\x7d]\x7d"

def betaText : String :=
  "\x7b\"schemas\":[\x7b\"name\":\"beta\",\"fields\":[]\x7d]\x7d"

/-- A directory that lists its two definition files against the order of their names. -/
def twoFiles (first second : ByteArray) : FileTree where
  nodes := [(["w"], .directory), (["w", "b.json"], .file second), (["w", "a.json"], .file first)]
  current := ["w"]

theorem wellNamed_twoFiles (first second : ByteArray) : (twoFiles first second).WellNamed := by
  have hcurrent : IsName "w" := by constructor <;> decide
  have hfirst : IsName "a.json" := by constructor <;> decide
  have hsecond : IsName "b.json" := by constructor <;> decide
  exact ⟨by simp [twoFiles], by simp [twoFiles, hcurrent],
    by simp [twoFiles, hcurrent, hfirst, hsecond]⟩

theorem definitionsAmong_twoFiles (first second : ByteArray) :
    definitionsAmong (twoFiles first second) ⟨"."⟩ ["b.json", "a.json"] = ["b.json", "a.json"] := by
  have hfirst : (twoFiles first second).isFile ⟨"./a.json"⟩ = true := rfl
  have hsecond : (twoFiles first second).isFile ⟨"./b.json"⟩ = true := rfl
  have hjson : Path.extension? ⟨"./a.json"⟩ = some "json" ∧
      Path.extension? ⟨"./b.json"⟩ = some "json" := by decide +kernel
  simp [definitionsAmong, Path.join, hfirst, hsecond, hjson]

theorem extendText_alphaText :
    (empty (.multiple [])).extendText .json alphaText = .ok ⟨[alpha], .multiple []⟩ := by
  have hread : DefinitionFormat.json.decodeFile alphaText = .ok ⟨[⟨"alpha", none, []⟩]⟩ := by
    decide +kernel
  rw [extendText_of_decodeFile hread]
  rfl

theorem load_twoFiles :
    [⟨"./a.json"⟩, ⟨"./b.json"⟩].foldlM (load (twoFiles alphaText.toUTF8 betaText.toUTF8))
      (empty (.multiple [])) = .ok ⟨[alpha, beta], .multiple []⟩ := by
  have hfirst := extendText_alphaText
  have hsecond : (SchemaSet.mk [alpha] (.multiple [])).extendText .json betaText =
      .ok ⟨[alpha, beta], .multiple []⟩ := by
    have hread : DefinitionFormat.json.decodeFile betaText = .ok ⟨[⟨"beta", none, []⟩]⟩ := by
      decide +kernel
    rw [extendText_of_decodeFile hread]
    rfl
  generalize alphaText = first, betaText = second at *
  rw [List.foldlM_cons, load_eq_ok_of_file rfl rfl (by decide +kernel) hfirst, ok_bind,
    List.foldlM_cons, load_eq_ok_of_file rfl rfl (by decide +kernel) hsecond]
  rfl

theorem loading_merges_twoFiles : ∃ t t' : FileTree, t.WellNamed ∧ t.Relists t' ∧
    t.entries ⟨"."⟩ = .ok ["b.json", "a.json"] ∧ t'.entries ⟨"."⟩ = .ok ["a.json", "b.json"] ∧
      (ofDirectory t ⟨"."⟩).map schemas = .ok [alpha, beta] ∧
      (ofDirectory t' ⟨"."⟩).map schemas = .ok [alpha, beta] ∧
      (ofPaths t [⟨"."⟩]).map schemas = .ok [alpha, beta] ∧
      (∃ front back, ofPaths t [⟨"./a.json"⟩] = .ok front ∧ ofPaths t [⟨"./b.json"⟩] = .ok back ∧
        ["alpha", "beta"] = front.names ++ back.names) ∧
      ofPaths t ([⟨"./c.json"⟩] ++ [⟨"./a.json"⟩]) = .error (.io .notFound) := by
  have hloaded := ofPaths_eq_ok_iff.mpr ⟨_, load_twoFiles, rfl⟩
  generalize alphaText.toUTF8 = first, betaText.toUTF8 = second at hloaded
  have hnamed := wellNamed_twoFiles first second
  have hmerges := loading_merges hnamed
  have hlisted : (twoFiles first second).entries ⟨"."⟩ = .ok ["b.json", "a.json"] := rfl
  obtain ⟨t', hrelists, hlisted'⟩ := hmerges.listable _ _ ["a.json", "b.json"] hlisted (.swap ..)
  have hdirectory : (ofDirectory (twoFiles first second) ⟨"."⟩).map schemas =
      .ok [alpha, beta] := by
    rw [← hmerges.definitions _ _ ["a.json", "b.json"] hlisted (by decide)
      (definitionsAmong_twoFiles first second ▸ .swap ..)]
    exact congrArg (Except.map schemas) hloaded
  have hrelisted : (ofDirectory t' ⟨"."⟩).map schemas = .ok [alpha, beta] := by
    rw [hmerges.relisted t' hrelists, hdirectory]
  have hmissing : ofPaths (twoFiles first second) [⟨"./c.json"⟩] = .error (.io .notFound) := by
    have hformat : DefinitionFormat.ofPath? ⟨"./c.json"⟩ = some .json := by decide +kernel
    have hother : (twoFiles first second).isDirectory ⟨"./c.json"⟩ = false := rfl
    have htext : (twoFiles first second).readText ⟨"./c.json"⟩ = .error .notFound := rfl
    rw [ofPaths_eq, List.foldlM_cons, load, if_neg (by rw [hother]; decide), loadFile, hformat]
    dsimp only
    rw [htext]
    rfl
  obtain ⟨front, back, hfront, hback, hnames, -⟩ :=
    hmerges.append [⟨"./a.json"⟩] [⟨"./b.json"⟩] _ hloaded
  exact ⟨_, t', hnamed, hrelists, hlisted, hlisted', hdirectory, hrelisted,
    (hmerges.directory _ rfl).trans hdirectory, ⟨front, back, hfront, hback, hnames⟩,
    hmerges.fails _ _ _ hmissing⟩

end SchemaSet

end CommandSchema
