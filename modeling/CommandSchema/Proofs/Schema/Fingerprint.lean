import CommandSchema.Fingerprint
import CommandSchema.Proofs.Field.Lossless
import CommandSchema.Proofs.Schema.Consistency

/-!
# Fingerprints tell schemas apart

The text under a fingerprint can be read back, so it is the text of one struct name and one schema
only.  Two different schemas share a fingerprint only if the digest has a collision.
-/

namespace CommandSchema

open Json

namespace Schema

theorem default_ne_count (s : Schema) {f : Field} (hf : f ∈ s.fields) (n : UInt32) :
    f.default ≠ some (.count n) := by
  intro hcount
  have htype := ((s.wellFormed hf).default _ hcount).2
  cases hkind : f.kind with
  | valued t | positional t =>
      cases t <;>
        simp [hkind, FieldKind.defaultTypeName?, ValueType.name, Value.typeName] at htype
  | _ => simp [hkind, FieldKind.defaultTypeName?, Value.typeName] at htype

theorem fits_document (s : Schema) : s.document.Fits 4 := by
  refine .record ?_
  simp only [List.forall_mem_append, List.forall_mem_cons, List.not_mem_nil, false_implies,
    implies_true, and_true]
  exact ⟨⟨.text _, Document.fits_member "description" _ .text⟩,
    Document.fits_list _ Field.fits_document⟩

/-- The fields of a schema are read back from what was written of them. -/
theorem mapM_read_fields (s : Schema) :
    (s.fields.map fun f => f.document.reading).mapM Field.read = .ok s.fields := by
  refine mapM_reading fun f hf => ?_
  rw [Field.read_document, Field.readBack_of_not_count (s.default_ne_count hf)]

theorem parts_of_reading {s s' : Schema} (h : s.document.reading = s'.document.reading) :
    s.name = s'.name ∧ s.description = s'.description ∧ s.fields = s'.fields := by
  have hlist : (s.fields.map fun f => f.document.reading) =
      (s'.fields.map fun f => f.document.reading) → s.fields = s'.fields := by
    intro hfields
    have hread := s.mapM_read_fields
    rw [hfields, s'.mapM_read_fields] at hread
    exact (Except.ok.inj hread).symm
  simp only [document, Document.reading, Document.memberReadings_eq_map] at h
  -- A description that is there is one member more.
  cases hd : s.description <;> cases hd' : s'.description <;>
    simp [hd, hd', Document.member, Document.reading, Document.readings_eq_map,
      Function.comp_def] at h
  case none.none => exact ⟨h.1, rfl, hlist h.2⟩
  case some.some => exact ⟨h.1, congrArg some h.2.1, hlist h.2.2⟩

end Schema

namespace Fingerprint

/-- The bytes under a fingerprint. -/
def bytes (structName : String) (s : Schema) : List UInt8 :=
  (subject structName s).toUTF8.data.toList

theorem subject_of_bytes {n n' : String} {s s' : Schema} (h : bytes n s = bytes n' s') :
    subject n s = subject n' s' :=
  String.toByteArray_inj.mp (ByteArray.ext (Array.toList_inj.mp h))

theorem reading_of_subject {n n' : String} {s s' : Schema} (h : subject n s = subject n' s') :
    n = n' ∧ s.document.reading = s'.document.reading := by
  have hread : ∀ (n : String) (s : Schema), read (subject n s) =
      (.list [.text (some n), s.document.reading] true, true) := by
    intro n s
    have hfits : (Document.list [.text n, s.document]).Fits 5 := .list <| by
      simpa using ⟨.text n, s.fits_document⟩
    exact read_compact (hfits.mono (by decide))
  have hboth := hread n s
  rw [h, hread n' s'] at hboth
  simp only [Prod.mk.injEq, Reading.list.injEq, List.cons.injEq, Reading.text.injEq,
    Option.some.injEq, and_true] at hboth
  exact ⟨hboth.1.symm, hboth.2.symm⟩

theorem bytes_eq_iff {n n' : String} {s s' : Schema} :
    bytes n s = bytes n' s' ↔
      n = n' ∧ s.name = s'.name ∧ s.description = s'.description ∧ s.fields = s'.fields := by
  constructor
  · intro h
    obtain ⟨hn, hreading⟩ := reading_of_subject (subject_of_bytes h)
    exact ⟨hn, Schema.parts_of_reading hreading⟩
  · rintro ⟨rfl, hname, hdescription, hfields⟩
    rw [bytes, bytes, subject, subject, Schema.document, Schema.document, hname, hdescription,
      hfields]

end Fingerprint

/-- Two texts that the digest does not tell apart. -/
def Sha256.Collision (bs bs' : List UInt8) : Prop :=
  bs ≠ bs' ∧ hexDigest bs = hexDigest bs'

/-- The bytes under a fingerprint are those of one struct name and one schema only. So two
fingerprints are equal exactly if these are the same or the digest has a collision. -/
theorem fingerprint_distinguishes (n n' : String) (s s' : Schema) :
    (Fingerprint.bytes n s = Fingerprint.bytes n' s' ↔
      n = n' ∧ s.name = s'.name ∧ s.description = s'.description ∧ s.fields = s'.fields) ∧
    (Fingerprint.of s n = Fingerprint.of s' n' ↔
      (n = n' ∧ s.name = s'.name ∧ s.description = s'.description ∧ s.fields = s'.fields) ∨
        Sha256.Collision (Fingerprint.bytes n s) (Fingerprint.bytes n' s')) := by
  refine ⟨Fingerprint.bytes_eq_iff, ?_⟩
  rw [← Fingerprint.bytes_eq_iff]
  constructor
  · intro h
    by_cases hbytes : Fingerprint.bytes n s = Fingerprint.bytes n' s'
    · exact Or.inl hbytes
    · exact Or.inr ⟨hbytes, h⟩
  · rintro (hbytes | ⟨-, hdigest⟩)
    · exact congrArg Sha256.hexDigest hbytes
    · exact hdigest

end CommandSchema
