import CommandSchema.Proofs.Files.Tree

/-!
# The order in which directories are listed

The nodes of a tree stand in the order in which directories list them.  A path leads to the same
place in whatever order that is; only the names in a directory come in another order.
-/

namespace CommandSchema

namespace FileTree

variable {t t' : FileTree} {l m : Location} {p : Path}

/-- The same files and directories, which may be listed in another order. -/
structure Relists (t t' : FileTree) : Prop where
  current : t'.current = t.current
  nodes : t'.nodes.Perm t.nodes

namespace Relists

theorem wellNamed (h : t.Relists t') (ht : t.WellNamed) : t'.WellNamed where
  distinct := (h.nodes.map Prod.fst).nodup_iff.mpr ht.distinct
  current := h.current ▸ ht.current
  nodes := fun n hn => ht.nodes n (h.nodes.subset hn)

/-! ## What stays the same -/

variable (h : t.Relists t') (ht : t.WellNamed)

include h ht

theorem node? (l : Location) : t'.node? l = t.node? l := by
  by_cases hl : l = []
  · rw [hl, node?_nil, node?_nil]
  · refine Option.ext fun node => ?_
    rw [← (h.wellNamed ht).mem_nodes_iff hl, ← ht.mem_nodes_iff hl, h.nodes.mem_iff]

theorem walk (l : Location) (names : List String) : t'.walk l names = t.walk l names := by
  induction names generalizing l with
  | nil => rfl
  | cons name names ih =>
      rw [FileTree.walk, FileTree.walk, h.node? ht]
      simp only [ih]

theorem locate (p : Path) : t'.locate p = t.locate p := by
  simp only [FileTree.locate, locateWith, h.current, h.walk ht]

theorem find (p : Path) : t'.find p = t.find p := by
  simp only [FileTree.find, h.locate ht, h.node? ht]

theorem isFile (p : Path) : t'.isFile p = t.isFile p := by
  rw [FileTree.isFile, FileTree.isFile, h.find ht]

theorem readText (p : Path) : t'.readText p = t.readText p := by
  simp only [FileTree.readText, readBytes, h.find ht]

/-- A directory lists the same names, or cannot be listed for the same reason. -/
theorem entries (p : Path) :
    (∃ e, t.entries p = .error e ∧ t'.entries p = .error e) ∨
      ∃ names names', t.entries p = .ok names ∧ t'.entries p = .ok names' ∧
        names'.Perm names := by
  rw [FileTree.entries, FileTree.entries, h.locate ht]
  cases t.locate p with
  | error e => exact .inl ⟨e, rfl, rfl⟩
  | ok l =>
      rw [ok_bind, ok_bind, h.node? ht]
      cases t.node? l with
      | none => exact .inl ⟨_, rfl, rfl⟩
      | some node =>
          cases node with
          | file bytes => exact .inl ⟨_, rfl, rfl⟩
          | directory => exact .inr ⟨_, _, rfl, rfl, h.nodes.filterMap _⟩

end Relists

/-! ## Every order -/

theorem exists_perm_of_perm_filterMap {α β : Type} {pick : α → Option β} {xs : List α}
    {ys : List β} (h : ys.Perm (xs.filterMap pick)) :
    ∃ xs' : List α, xs'.Perm xs ∧ xs'.filterMap pick = ys := by
  induction ys generalizing xs with
  | nil => exact ⟨xs, .rfl, h.nil_eq.symm⟩
  | cons y ys ih =>
      have hy : y ∈ xs.filterMap pick := h.subset List.mem_cons_self
      obtain ⟨x, hx, hpick⟩ := List.mem_filterMap.mp hy
      obtain ⟨front, back, rfl⟩ := List.append_of_mem hx
      have hmiddle : (front ++ x :: back).Perm (x :: (front ++ back)) := List.perm_middle
      have hpicked := h.trans (hmiddle.filterMap pick)
      rw [List.filterMap_cons_some hpick] at hpicked
      obtain ⟨xs', hperm, hxs'⟩ := ih hpicked.cons_inv
      refine ⟨x :: xs', (hperm.cons x).trans hmiddle.symm, ?_⟩
      rw [List.filterMap_cons_some hpick, hxs']

/-- A directory can list its names in any order. -/
theorem exists_relists (ht : t.WellNamed) {names names' : List String}
    (hnames : t.entries p = .ok names) (h : names'.Perm names) :
    ∃ t', t.Relists t' ∧ t'.entries p = .ok names' := by
  obtain ⟨l, hl, hlisted⟩ := ok_of_bind hnames
  cases hnode : t.node? l with
  | none =>
      rw [hnode] at hlisted
      cases hlisted
  | some node =>
      cases node with
      | file bytes =>
          rw [hnode] at hlisted
          cases hlisted
      | directory =>
          rw [hnode] at hlisted
          obtain rfl := Except.ok.inj hlisted
          obtain ⟨nodes, hnodes, hpicked⟩ := exists_perm_of_perm_filterMap h
          have hrelists : t.Relists { t with nodes := nodes } := ⟨rfl, hnodes⟩
          refine ⟨_, hrelists, ?_⟩
          rw [entries, hrelists.locate ht, hl, ok_bind, hrelists.node? ht, hnode]
          exact congrArg Except.ok hpicked

end FileTree

end CommandSchema
