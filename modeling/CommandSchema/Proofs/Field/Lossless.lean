import CommandSchema.Field.Layout
import CommandSchema.Proofs.Json.Value

/-!
# A field is read back as it was written

A draft is followed through the members of a written field: the name, the kind with the type that
lies beside it, and the members that are left out where there is nothing to say.  All of a field is
read back but a count, which is read as the integer that it looks like.
-/

namespace CommandSchema

open Json

namespace FieldKind

/-- The members that a kind is written as, in the form in which they are kept while a field is
read. -/
def parts (kind : FieldKind) : List KindPart :=
  .kind (.text kind.word) :: (kind.type?.map fun t => KindPart.type (.text t.name)).toList

theorem ofParts_parts (kind : FieldKind) : ofParts kind.parts = .ok kind := by
  cases kind with
  | valued t | positional t => cases t <;> rfl
  | _ => rfl

end FieldKind

namespace Field

/-- The field that is read where a field was written. -/
def readBack (f : Field) : Field :=
  { f with default := f.default.map Value.readBack }

theorem readBack_of_not_count {f : Field} (h : ∀ n, f.default ≠ some (.count n)) :
    f.readBack = f := by
  rw [readBack, Value.map_readBack_of_not_count h]

theorem fits_document (f : Field) : f.document.Fits 2 := by
  refine .record ?_
  simp only [List.forall_mem_append, List.forall_mem_cons, List.not_mem_nil, false_implies,
    implies_true, and_true]
  exact ⟨⟨⟨⟨⟨⟨⟨.text _, .text _⟩, Document.fits_member "type" _ fun t => .text t.name⟩,
    Document.fits_member "short" _ .letter⟩, Document.fits_member "long" _ .text⟩, .bool _⟩,
    Document.fits_member "default" _ Value.fits_document⟩,
    Document.fits_member "description" _ .text⟩

/-- The shape of a field in a JSON text. -/
abbrev jsonLayout : Layout Reading (Except Fault) Draft Field :=
  layout

/-- What is read of the members that make up a kind. -/
theorem takes_kind (kind : FieldKind) {draft : Draft} (h : draft.kindParts = []) :
    jsonLayout.Takes draft
      (("kind", .text kind.word) :: Document.member "type" (kind.type?.map fun t => .text t.name))
      { draft with kindParts := kind.parts } := by
  obtain ⟨name, short, long, required, default, description, parts⟩ := draft
  obtain rfl : parts = [] := h
  cases kind <;> rfl

/-- What has been read of a field after its name and its kind. -/
def draftOf (f : Field) (short : Option Char) (long : Option String) (required : Option Bool)
    (default : Option Value) (description : Option String) : Draft where
  name := some f.name
  short := short.map some
  long := long.map some
  required := required
  default := default.map fun v => some v.readBack
  description := description.map some
  kindParts := f.kind.parts

theorem finish_draftOf (f : Field) :
    jsonLayout.finish
      (f.draftOf f.short f.long (some f.required) f.default f.description) = .ok f.readBack := by
  change ((FieldKind.ofParts f.kind.parts).bind fun kind => .ok _) = _
  rw [FieldKind.ofParts_parts]
  simp only [draftOf, Except.bind, join_map_some, join_map_some_comp, Option.getD_some, readBack]

/-- A field is read back, except that a count in its default is read as an integer. -/
theorem read_document (f : Field) : read f.document.reading = .ok f.readBack := by
  have hhead : jsonLayout.Takes jsonLayout.start
      ([("name", .text f.name), ("kind", .text f.kind.word)] ++
        Document.member "type" (f.kind.type?.map fun t => .text t.name))
      (f.draftOf none none none none none) :=
    .cons rfl (takes_kind f.kind rfl)
  have hshort : jsonLayout.Takes (f.draftOf none none none none none)
      (Document.member "short" (f.short.map .letter)) (f.draftOf f.short none none none none) :=
    .member "short" f.short rfl letter_reading rfl rfl rfl
  have hlong : jsonLayout.Takes (f.draftOf f.short none none none none)
      (Document.member "long" (f.long.map .text)) (f.draftOf f.short f.long none none none) :=
    .member "long" f.long rfl string_reading rfl rfl rfl
  have hrequired : jsonLayout.Takes (f.draftOf f.short f.long none none none)
      [("required", .bool f.required)] (f.draftOf f.short f.long (some f.required) none none) :=
    .cons rfl (.nil _)
  have hdefault : jsonLayout.Takes (f.draftOf f.short f.long (some f.required) none none)
      (Document.member "default" (f.default.map Value.document))
      (f.draftOf f.short f.long (some f.required) f.default none) :=
    .member "default" f.default rfl Value.value_reading rfl rfl rfl
  have hdescription : jsonLayout.Takes (f.draftOf f.short f.long (some f.required) f.default none)
      (Document.member "description" (f.description.map .text))
      (f.draftOf f.short f.long (some f.required) f.default f.description) :=
    .member "description" f.description rfl string_reading rfl rfl rfl
  have htakes := hhead.append hshort |>.append hlong |>.append hrequired |>.append hdefault
    |>.append hdescription
  exact (Layout.read_record htakes).trans f.finish_draftOf

/-- No text is read as a field with a count for a default. -/
theorem keeps_no_count (n : UInt32) :
    jsonLayout.Keeps fun draft => draft.default ≠ some (some (.count n)) where
  slots := by
    simp only [jsonLayout, layout, List.forall_mem_cons, List.not_mem_nil, false_implies,
      implies_true, and_true]
    refine ⟨Slot.keeps .needed ?_, Slot.keeps .spare ?_, Slot.keeps .spare ?_, Slot.keeps .spare ?_,
      Slot.keeps .spare ?_, Slot.keeps .spare ?_⟩
    case refine_5 =>
      intro r v draft _ hread hv
      exact Value.ne_count_of_optional hread n (Option.some.inj hv)
    all_goals exact fun _ _ _ h _ => h
  others := by
    intro add hadd key c draft h
    obtain rfl := Others.kept.inj hadd
    unfold Draft.keep
    split_ifs <;> exact h

theorem default_ne_count {r : Reading} {f : Field} (h : read r = .ok f) (n : UInt32) :
    f.default ≠ some (.count n) := by
  obtain ⟨draft, hdraft, hfinish⟩ := (keeps_no_count n).draft_of_read nofun h
  obtain ⟨name, -, hfinish⟩ := ok_of_bind hfinish
  obtain ⟨kind, -, hfinish⟩ := ok_of_bind hfinish
  obtain rfl := Except.ok.inj hfinish
  exact fun hcount => hdraft (Option.join_eq_some_iff.mp hcount)

end Field

/-- What JSON text keeps of a field and of a value: everything, as long as no count is
involved, and no text at all stands for a count. -/
theorem field_json_lossless :
    (∀ f : Field, (∀ n, f.default ≠ some (.count n)) →
      decode Field.read (compact f.document) = .ok f) ∧
    (∀ v : Value, (∀ n, v ≠ .count n) → decode Source.value (compact v.document) = .ok v) ∧
    (∀ (text : String) (n : UInt32), decode Source.value text ≠ .ok (.count n)) ∧
    (∀ (text : String) (n : UInt32),
      (decode Field.read text).map Field.default ≠ .ok (some (.count n))) ∧
    ∀ n : UInt32, ∃ i : Int64, i.toInt = n.toNat ∧
      decode Source.value (compact (Value.count n).document) = .ok (.int i) := by
  refine ⟨?_, ?_, ?_, ?_, ?_⟩
  · intro f hf
    rw [decode_compact _ (f.fits_document.mono (by decide)), Field.read_document,
      Field.readBack_of_not_count hf]
  · intro v hv
    rw [decode_compact _ (v.fits_document.mono (by decide)), Value.value_reading,
      Value.readBack_of_not_count hv]
  · intro text n h
    obtain ⟨r, hr⟩ := exists_reading_of_decode h
    exact Value.value_ne_count r n hr
  · intro text n h
    cases hf : decode Field.read text with
    | error e => simp [hf, Except.map] at h
    | ok f =>
        obtain ⟨r, hr⟩ := exists_reading_of_decode hf
        exact Field.default_ne_count hr n (by simpa [hf, Except.map] using h)
  · intro n
    refine ⟨_, Value.toInt_ofNat_count n, ?_⟩
    exact (decode_compact _ ((Value.count n).fits_document.mono (by decide))).trans
      (Value.value_reading _)

/-- A field that no schema accepts, with characters that need escapes. -/
def oddField : Field where
  name := "a\nb"
  kind := .positional .int
  short := some '"'
  long := some "\x00é"
  required := true
  default := some (.int Int64.minValue)
  description := some ""

theorem field_json_lossless_odd :
    (∀ n, oddField.default ≠ some (.count n)) ∧
    decode Field.read (compact oddField.document) = .ok oddField ∧
    (∀ n, Value.list ["\x1f", ""] ≠ .count n) ∧
    decode Source.value (compact (Value.list ["\x1f", ""]).document) =
      .ok (.list ["\x1f", ""]) := by
  have hfield : ∀ n, oddField.default ≠ some (.count n) := nofun
  have hlist : ∀ n, Value.list ["\x1f", ""] ≠ .count n := nofun
  exact ⟨hfield, field_json_lossless.1 oddField hfield, hlist, field_json_lossless.2.1 _ hlist⟩

end CommandSchema
