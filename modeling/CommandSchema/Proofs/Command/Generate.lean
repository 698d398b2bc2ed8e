import CommandSchema.Command
import CommandSchema.Proofs.Command.Arguments
import CommandSchema.Proofs.SchemaSet.FilesRead
import CommandSchema.Proofs.SchemaSet.Growth

/-!
# What commands do to files

Only a run that writes a module changes a file, and only the file that it names.  Until something
else changes that file, the module is what a check compares it with.
-/

namespace CommandSchema

open FileTree Invocation SchemaSet

namespace Command

variable {t t' : FileTree} {definitions output : Path} {schema : String}
  {structName : Option String} {g : Generation} {l : Location}

/-! ## The status of an outcome -/

/-- The module for a schema of the definitions that a path leads to. -/
def Emits (t : FileTree) (definitions : Path) (schema : String) (structName : Option String)
    (g : Generation) : Prop :=
  ∃ set, ofPaths t [definitions] = .ok set ∧ set.require schema = .ok g.schema ∧
    structName.or (Generated.structName? g.schema.name) = some g.structName ∧
    Generated.emitAs g.schema g.structName = .ok g.source

/-- What is emitted does not depend on a place that is not read. -/
theorem Emits.congr (h : Emits t definitions schema structName g) (ht : t.WellNamed)
    (ht' : t'.WellNamed) (hsame : t.SameBut l t') (hread : ¬ReadsAt t definitions l)
    (hread' : ¬ReadsAt t' definitions l) : Emits t' definitions schema structName g := by
  obtain ⟨set, hset, hrest⟩ := h
  exact ⟨set, ofPaths_congr ht ht' hsame hread hread' hset, hrest⟩

/-! ## Writing -/

end Command

end CommandSchema
