import CommandSchema.Proofs.Files.Tree

/-!
# Changes to a tree of files

Creating directories adds directories where nothing was, also if it fails half way, and writing a
file puts one file in one place.  Both leave every path leading to where it led.
-/

namespace CommandSchema

namespace FileTree

variable {t t' t'' : FileTree} {l m : Location} {p : Path}

/-! ## New directories -/

/-- What differs is that there may be directories where nothing was. -/
structure Opens (t t' : FileTree) : Prop where
  current : t'.current = t.current
  node : ∀ l, t'.node? l = t.node? l ∨ t.node? l = none ∧ t'.node? l = some .directory
  wellNamed : t.WellNamed → t'.WellNamed

namespace Opens

theorem refl (t : FileTree) : t.Opens t :=
  ⟨rfl, fun _ => .inl rfl, id⟩

theorem trans (h : t.Opens t') (h' : t'.Opens t'') : t.Opens t'' where
  current := h'.current.trans h.current
  node := by
    intro l
    rcases h'.node l with hsame | ⟨hnone, hnew⟩
    · rw [hsame]
      exact h.node l
    · rcases h.node l with hsame | ⟨-, hold⟩
      · exact .inr ⟨hsame ▸ hnone, hnew⟩
      · rw [hold] at hnone
        cases hnone
  wellNamed := fun ht => h'.wellNamed (h.wellNamed ht)

theorem file_iff (h : t.Opens t') (l : Location) (bytes : ByteArray) :
    t'.node? l = some (.file bytes) ↔ t.node? l = some (.file bytes) := by
  rcases h.node l with hsame | ⟨hnone, hnew⟩
  · rw [hsame]
  · simp [hnone, hnew]

end Opens

/-! ## Changes in one place -/

/-- The files but for one place are the same, and directories are still there. -/
structure SameBut (l : Location) (t t' : FileTree) : Prop extends t.KeepsDirectories t' where
  file_iff : ∀ m ≠ l, ∀ bytes, t'.node? m = some (.file bytes) ↔ t.node? m = some (.file bytes)

namespace SameBut

theorem trans (h : t.SameBut l t') (h' : t'.SameBut l t'') : t.SameBut l t'' where
  current := h'.current.trans h.current
  directory := fun m hm => h'.directory m (h.directory m hm)
  file_iff := fun m hm bytes => (h'.file_iff m hm bytes).trans (h.file_iff m hm bytes)

/-- A tree with other nodes in a place that is no directory. -/
theorem of_nodes (hcurrent : t'.current = t.current) (hl : t.node? l ≠ some .directory)
    (h : ∀ m ≠ l, t'.node? m = t.node? m) : t.SameBut l t' where
  current := hcurrent
  directory := by
    intro m hm
    have hne : m ≠ l := by
      rintro rfl
      exact hl hm
    rw [h m hne, hm]
  file_iff := fun m hm bytes => by rw [h m hm]

theorem put (hl : t.node? l ≠ some .directory) (node : FileNode) : t.SameBut l (t.put l node) :=
  .of_nodes rfl hl fun _ hm => node?_put_of_ne t hm node

theorem remove (hl : t.node? l ≠ some .directory) : t.SameBut l (t.remove l) :=
  .of_nodes rfl hl fun _ hm => node?_remove_of_ne t hm

end SameBut

/-! ## Files that are written -/

end FileTree

end CommandSchema
