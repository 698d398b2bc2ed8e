import CommandSchema.Files.Tree
import CommandSchema.Proofs.Fallible
import CommandSchema.Proofs.Files.Path
import Mathlib.Data.List.Nodup

/-!
# Places in a tree of files

What is at a location stays there until something is put on it or it is removed.  Where directories
stay directories, a path goes on leading to where it led.
-/

namespace CommandSchema

namespace FileTree

variable {t t' : FileTree} {l m : Location} {p : Path}

/-! ## Nodes -/

/-- The tree without what is at a location. -/
def remove (t : FileTree) (l : Location) : FileTree :=
  { t with nodes := t.nodes.filter fun n => n.1 != l }

theorem node?_nil (t : FileTree) : t.node? [] = some .directory :=
  if_pos rfl

theorem ne_directory_of_file {bytes : ByteArray} (h : t.node? l = some (.file bytes)) :
    t.node? l ≠ some .directory := by
  rw [h]
  simp

theorem node?_remove_of_ne (t : FileTree) (h : m ≠ l) : (t.remove l).node? m = t.node? m := by
  have hfind : (t.remove l).nodes.find? (fun n => n.1 == m) = t.nodes.find? fun n => n.1 == m := by
    rw [remove, List.find?_filter]
    congr 1
    funext n
    by_cases hn : n.1 = m <;> simp [hn, h]
  rw [node?, node?, hfind]

theorem find?_put (t : FileTree) (l m : Location) (node : FileNode) :
    (t.put l node).nodes.find? (fun n => n.1 == m) =
      ((t.remove l).nodes.find? fun n => n.1 == m).or (if l = m then some (l, node) else none) := by
  have hnodes : (t.put l node).nodes = (t.remove l).nodes ++ [(l, node)] := rfl
  rw [hnodes, List.find?_append]
  by_cases h : l = m <;> simp [h]

theorem node?_put_of_ne (t : FileTree) (h : m ≠ l) (node : FileNode) :
    (t.put l node).node? m = t.node? m := by
  rw [node?, find?_put, if_neg h.symm, Option.or_none, ← node?, node?_remove_of_ne t h]

/-! ## Names -/

/-- Every location has one entry, and the names are such as a directory can hold. -/
structure WellNamed (t : FileTree) : Prop where
  distinct : (t.nodes.map Prod.fst).Nodup
  current : ∀ name ∈ t.current, IsName name
  nodes : ∀ n ∈ t.nodes, ∀ name ∈ n.1, IsName name

namespace WellNamed

theorem mem_nodes_iff (h : t.WellNamed) (hl : l ≠ []) {node : FileNode} :
    (l, node) ∈ t.nodes ↔ t.node? l = some node := by
  rw [node?, if_neg hl, Option.map_eq_some_iff]
  constructor
  · intro hmem
    cases hfind : t.nodes.find? fun n => n.1 == l with
    | none =>
        have hne := List.find?_eq_none.mp hfind _ hmem
        exact absurd (beq_self_eq_true l) hne
    | some n =>
        have hn := List.find?_some hfind
        have hsame := List.inj_on_of_nodup_map h.distinct (List.mem_of_find?_eq_some hfind) hmem
          (by simpa using hn)
        exact ⟨n, rfl, congrArg Prod.snd hsame⟩
  · rintro ⟨n, hfind, rfl⟩
    have hn : n.1 = l := by simpa using List.find?_some hfind
    rw [← hn]
    exact List.mem_of_find?_eq_some hfind

theorem remove (h : t.WellNamed) (l : Location) : (t.remove l).WellNamed where
  distinct := h.distinct.sublist (List.filter_sublist.map _)
  current := h.current
  nodes := fun n hn => h.nodes n (List.mem_filter.mp hn).1

theorem put (h : t.WellNamed) (hl : ∀ name ∈ l, IsName name) (node : FileNode) :
    (t.put l node).WellNamed where
  distinct := by
    have hnodes : (t.put l node).nodes = (t.remove l).nodes ++ [(l, node)] := rfl
    rw [hnodes, List.map_append]
    refine List.Nodup.append (h.remove l).distinct (List.nodup_singleton _) ?_
    intro l' hl' hlast
    obtain rfl : l' = l := by simpa using hlast
    obtain ⟨n, hn, rfl⟩ := List.mem_map.mp hl'
    simpa using (List.mem_filter.mp hn).2
  current := h.current
  nodes := by
    intro n hn
    rcases List.mem_append.mp hn with hn | hn
    · exact (h.remove l).nodes n hn
    · obtain rfl := List.mem_singleton.mp hn
      exact hl

end WellNamed

/-! ## Walks -/

/-- Where one name of a path leads. -/
inductive Leads (l : Location) : String → Location → Prop
  | same : Leads l "." l
  | parent : Leads l ".." l.dropLast
  | child {name : String} (hsame : name ≠ ".") (hparent : name ≠ "..")
      (hshort : name.utf8ByteSize ≤ 255) : Leads l name (l ++ [name])

theorem Leads.eq_of_same {next : Location} (h : Leads l "." next) : next = l := by
  generalize hname : "." = name at h
  cases h with
  | same => rfl
  | parent => exact absurd hname (by decide)
  | child hsame => exact absurd hname.symm hsame

theorem walk_cons_eq_ok_iff {name : String} {names : List String} :
    t.walk l (name :: names) = .ok m ↔
      t.node? l = some .directory ∧ ∃ next, Leads l name next ∧ t.walk next names = .ok m := by
  constructor
  · intro h
    rw [walk] at h
    split at h
    · cases h
    · cases h
    · rename_i hnode
      refine ⟨hnode, ?_⟩
      split_ifs at h with hsame hparent hlong
      · exact ⟨l, hsame ▸ .same, h⟩
      · exact ⟨_, hparent ▸ .parent, h⟩
      · exact ⟨_, .child hsame hparent (Nat.not_lt.mp hlong), h⟩
  · rintro ⟨hnode, next, hnext, h⟩
    rw [walk, hnode]
    cases hnext with
    | same => exact h
    | parent => exact h
    | child hsame hparent hshort =>
        simp only
        rw [if_neg hsame, if_neg hparent, if_neg (Nat.not_lt.mpr hshort)]
        exact h

theorem walk_append_eq_ok_iff {names more : List String} :
    t.walk l (names ++ more) = .ok m ↔ ∃ k, t.walk l names = .ok k ∧ t.walk k more = .ok m := by
  induction names generalizing l with
  | nil =>
      constructor
      · exact fun h => ⟨l, rfl, h⟩
      · rintro ⟨k, hk, h⟩
        obtain rfl := Except.ok.inj hk
        exact h
  | cons name names ih =>
      rw [List.cons_append, walk_cons_eq_ok_iff]
      constructor
      · rintro ⟨hnode, next, hnext, h⟩
        obtain ⟨k, hk, h⟩ := ih.mp h
        exact ⟨k, walk_cons_eq_ok_iff.mpr ⟨hnode, next, hnext, hk⟩, h⟩
      · rintro ⟨k, hk, h⟩
        obtain ⟨hnode, next, hnext, hk⟩ := walk_cons_eq_ok_iff.mp hk
        exact ⟨hnode, next, hnext, ih.mpr ⟨k, hk, h⟩⟩

theorem walk_self_eq_ok_iff : t.walk l ["."] = .ok m ↔ t.node? l = some .directory ∧ l = m := by
  rw [walk_cons_eq_ok_iff]
  constructor
  · rintro ⟨hnode, next, hnext, h⟩
    obtain rfl := Except.ok.inj h
    exact ⟨hnode, hnext.eq_of_same.symm⟩
  · rintro ⟨hnode, rfl⟩
    exact ⟨hnode, l, .same, rfl⟩

theorem walk_name_eq_ok_iff {name : String} (hname : IsName name) :
    t.walk l [name] = .ok m ↔ t.node? l = some .directory ∧ m = l ++ [name] := by
  rw [walk_cons_eq_ok_iff]
  constructor
  · rintro ⟨hnode, next, hnext, h⟩
    obtain rfl := Except.ok.inj h
    cases hnext with
    | same => exact absurd rfl hname.not_same
    | parent => exact absurd rfl hname.not_parent
    | child => exact ⟨hnode, rfl⟩
  · rintro ⟨hnode, rfl⟩
    exact ⟨hnode, _, .child hname.not_same hname.not_parent hname.short, rfl⟩

/-- What is a directory before is one afterwards. -/
structure KeepsDirectories (t t' : FileTree) : Prop where
  current : t'.current = t.current
  directory : ∀ l, t.node? l = some .directory → t'.node? l = some .directory

theorem KeepsDirectories.walk (h : t.KeepsDirectories t') {names : List String}
    (hwalk : t.walk l names = .ok m) : t'.walk l names = .ok m := by
  induction names generalizing l with
  | nil => exact hwalk
  | cons name names ih =>
      obtain ⟨hnode, next, hnext, hwalk⟩ := walk_cons_eq_ok_iff.mp hwalk
      exact walk_cons_eq_ok_iff.mpr ⟨h.directory l hnode, next, hnext, ih hwalk⟩

/-! ## Where paths lead -/

/-- Where a path starts. -/
def start (t : FileTree) (p : Path) : Location :=
  if p.isAbsolute then [] else t.current

theorem locateWith_eq_ok_iff {more : List String} :
    t.locateWith p more = .ok l ↔
      '\x00' ∉ p.text.toList ∧ p.text ≠ "" ∧ p.text.utf8ByteSize < 4096 ∧
        t.walk (t.start p) (p.names ++ more) = .ok l := by
  rw [locateWith, ← start]
  simp only [List.contains_iff_mem]
  split_ifs with hzero hempty hlong
  · simp [hzero]
  · simp [hempty]
  · simp [Nat.not_lt.mpr hlong]
  · simp [hzero, hempty, Nat.not_le.mp hlong]

theorem KeepsDirectories.locateWith (h : t.KeepsDirectories t') {more : List String}
    (hp : t.locateWith p more = .ok l) : t'.locateWith p more = .ok l := by
  obtain ⟨hzero, hempty, hshort, hwalk⟩ := locateWith_eq_ok_iff.mp hp
  have hstart : t'.start p = t.start p := by rw [start, start, h.current]
  exact locateWith_eq_ok_iff.mpr ⟨hzero, hempty, hshort, hstart ▸ h.walk hwalk⟩

theorem KeepsDirectories.locate (h : t.KeepsDirectories t') (hp : t.locate p = .ok l) :
    t'.locate p = .ok l :=
  h.locateWith hp

/-- A slash at the end of a path only asks for a directory. -/
theorem walk_of_locate (hp : t.locate p = .ok l) : t.walk (t.start p) p.names = .ok l := by
  obtain ⟨-, -, -, hwalk⟩ := locateWith_eq_ok_iff.mp hp
  obtain ⟨k, hk, hwalk⟩ := walk_append_eq_ok_iff.mp hwalk
  split_ifs at hwalk
  · obtain ⟨-, rfl⟩ := walk_self_eq_ok_iff.mp hwalk
    exact hk
  · obtain rfl := Except.ok.inj hwalk
    exact hk

/-- Where a name in a directory leads, unless the path gets too long. -/
theorem locate_join_eq_ok_iff {name : String} (hname : IsName name) (hp : t.locate p = .ok l)
    (hl : t.node? l = some .directory) :
    t.locate (p.join name) = .ok m ↔
      (p.join name).text.utf8ByteSize < 4096 ∧ m = l ++ [name] := by
  obtain ⟨hzero, hempty, -, -⟩ := locateWith_eq_ok_iff.mp hp
  have hwalk : t.walk (t.start p) (p.names ++ [name]) = .ok m ↔ m = l ++ [name] := by
    rw [walk_append_eq_ok_iff]
    constructor
    · rintro ⟨k, hk, h⟩
      obtain rfl := Except.ok.inj ((walk_of_locate hp).symm.trans hk)
      exact ((walk_name_eq_ok_iff hname).mp h).2
    · intro h
      exact ⟨l, walk_of_locate hp, (walk_name_eq_ok_iff hname).mpr ⟨hl, h⟩⟩
  have hstart : t.start (p.join name) = t.start p := by
    rw [start, start, Path.isAbsolute_join hempty]
  rw [locate, Path.endsWithSlash_join hname, if_neg (by decide), locateWith_eq_ok_iff,
    Path.zero_mem_join hname, List.append_nil, Path.names_join hempty hname, hstart, hwalk]
  simp only [hzero, Path.join_ne_empty hname, not_false_iff, ne_eq, true_and]

/-! ## What is found -/

theorem find_eq_ok_iff {node : FileNode} :
    t.find p = .ok node ↔ ∃ l, t.locate p = .ok l ∧ t.node? l = some node := by
  constructor
  · intro h
    obtain ⟨l, hl, h⟩ := ok_of_bind h
    refine ⟨l, hl, ?_⟩
    cases hnode : t.node? l with
    | none =>
        rw [hnode] at h
        cases h
    | some node' =>
        rw [hnode] at h
        exact congrArg some (Except.ok.inj h)
  · rintro ⟨l, hl, hnode⟩
    rw [find, hl, ok_bind, hnode]
    rfl

theorem isFile_iff :
    t.isFile p = true ↔ ∃ l bytes, t.locate p = .ok l ∧ t.node? l = some (.file bytes) := by
  have hfile : t.isFile p = true ↔ ∃ bytes, t.find p = .ok (.file bytes) := by
    rw [isFile]
    split <;> simp_all
  rw [hfile]
  simp only [find_eq_ok_iff]
  exact exists_comm

theorem isDirectory_iff :
    t.isDirectory p = true ↔ ∃ l, t.locate p = .ok l ∧ t.node? l = some .directory := by
  rw [← find_eq_ok_iff, isDirectory]
  split <;> simp_all

theorem not_isDirectory_of_isFile (h : t.isFile p = true) : ¬t.isDirectory p = true := by
  obtain ⟨l, bytes, hl, hnode⟩ := isFile_iff.mp h
  intro hdirectory
  obtain ⟨l', hl', hnode'⟩ := isDirectory_iff.mp hdirectory
  obtain rfl := Except.ok.inj (hl.symm.trans hl')
  exact ne_directory_of_file hnode hnode'

theorem readBytes_eq_ok_iff {bytes : ByteArray} :
    t.readBytes p = .ok bytes ↔ ∃ l, t.locate p = .ok l ∧ t.node? l = some (.file bytes) := by
  rw [← find_eq_ok_iff]
  constructor
  · intro h
    obtain ⟨node, hnode, h⟩ := ok_of_bind h
    cases node with
    | file bytes' =>
        obtain rfl := Except.ok.inj h
        exact hnode
    | directory => cases h
  · intro h
    rw [readBytes, h]
    rfl

theorem fromUTF8?_eq_some_iff {bytes : ByteArray} {text : String} :
    String.fromUTF8? bytes = some text ↔ bytes = text.toUTF8 := by
  rw [String.fromUTF8?]
  constructor
  · intro h
    split_ifs at h
    obtain rfl := Option.some.inj h
    rfl
  · rintro rfl
    exact dif_pos text.isValidUTF8

theorem readText_eq_ok_iff {text : String} :
    t.readText p = .ok text ↔
      ∃ l, t.locate p = .ok l ∧ t.node? l = some (.file text.toUTF8) := by
  rw [← readBytes_eq_ok_iff]
  constructor
  · intro h
    obtain ⟨bytes, hbytes, h⟩ := ok_of_bind h
    cases htext : String.fromUTF8? bytes with
    | none =>
        rw [htext] at h
        cases h
    | some text' =>
        rw [htext] at h
        obtain rfl := Except.ok.inj h
        rw [hbytes, fromUTF8?_eq_some_iff.mp htext]
  · intro h
    rw [readText, h, ok_bind, fromUTF8?_eq_some_iff.mpr rfl]
    rfl

/-! ## Directories that are listed -/

theorem dropLast_eq_and_getLast?_iff {l' : Location} {name : String} :
    l'.dropLast = l ∧ l'.getLast? = some name ↔ l' = l ++ [name] := by
  constructor
  · rintro ⟨rfl, hname⟩
    exact (List.dropLast_append_getLast? name hname).symm
  · rintro rfl
    exact ⟨List.dropLast_concat, List.getLast?_concat⟩

/-- The names in a directory are those of the locations one below it. -/
theorem exists_entries (hp : t.locate p = .ok l) (hl : t.node? l = some .directory) :
    ∃ names, t.entries p = .ok names ∧ (t.WellNamed → names.Nodup) ∧
      ∀ name, name ∈ names ↔ ∃ node, (l ++ [name], node) ∈ t.nodes := by
  have hentries : t.entries p = .ok (t.nodes.filterMap fun n =>
      if n.1.dropLast = l then n.1.getLast? else none) := by
    rw [entries, hp, ok_bind, hl]
    rfl
  have hpick : ∀ (n : Location × FileNode) (name : String),
      (if n.1.dropLast = l then n.1.getLast? else none) = some name ↔ n.1 = l ++ [name] := by
    intro n name
    rw [← dropLast_eq_and_getLast?_iff]
    split_ifs with hdrop <;> simp [hdrop]
  refine ⟨_, hentries, ?_, ?_⟩
  · intro h
    refine List.pairwise_filterMap.mpr ((List.pairwise_map.mp h.distinct).imp ?_)
    intro n n' hne name hname name' hname'
    rintro rfl
    exact hne (((hpick n name).mp hname).trans ((hpick n' name).mp hname').symm)
  · intro name
    simp only [List.mem_filterMap, hpick]
    constructor
    · rintro ⟨⟨_, node⟩, hmem, rfl⟩
      exact ⟨node, hmem⟩
    · rintro ⟨node, hmem⟩
      exact ⟨_, hmem, rfl⟩

end FileTree

end CommandSchema
