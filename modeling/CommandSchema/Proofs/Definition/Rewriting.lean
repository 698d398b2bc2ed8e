import CommandSchema.Definition.Document
import CommandSchema.Proofs.Json.Value
import CommandSchema.SchemaSet

/-!
# Definition files survive being rewritten

The records of a definition file lie inside each other, and each is read back from its written
form.  Since no text is read as a count, whatever was read once is read back, so that a file can be
written anew without a change to the schemas that it loads.
-/

namespace CommandSchema

open Json

/-! ## Declared fields -/

namespace FieldDefinition

/-- The declaration that is read where a declaration was written. -/
def readBack (d : FieldDefinition) : FieldDefinition :=
  { d with default := d.default.map Value.readBack }

/-- The shape of a declared field in a JSON text. -/
abbrev jsonLayout : Layout Reading (Except Fault) Draft FieldDefinition :=
  layout

theorem fits_document (d : FieldDefinition) : d.document.Fits 2 := by
  refine .record ?_
  simp only [List.forall_mem_append, List.forall_mem_cons, List.not_mem_nil, false_implies,
    implies_true, and_true]
  exact ⟨⟨⟨⟨⟨⟨.text _, Document.fits_list _ .text⟩, Document.fits_member "name" _ .text⟩,
    Document.fits_member "type" _ fun t => .text t.name⟩,
    Document.fits_member "default" _ Value.fits_document⟩,
    Document.fits_member "required" _ .bool⟩, Document.fits_member "description" _ .text⟩

/-- What has been read of a declared field after its kind and its spellings. -/
def draftOf (d : FieldDefinition) (name : Option String) (type : Option ValueType)
    (default : Option Value) (required : Option Bool) (description : Option String) : Draft where
  kind := some d.kind
  options := some d.options
  name := name.map some
  type := type.map some
  default := default.map fun v => some v.readBack
  required := required.map some
  description := description.map some

theorem read_document (d : FieldDefinition) : read d.document.reading = .ok d.readBack := by
  have hkind : jsonLayout.add jsonLayout.start (.ok "kind", (Document.text d.kind.word).reading) =
      .ok ⟨some d.kind, none, none, none, none, none, none⟩ := by
    cases d.kind <;> rfl
  have hhead : jsonLayout.Takes jsonLayout.start
      [("kind", .text d.kind.word), ("options", .list (d.options.map .text))]
      (d.draftOf none none none none none) := by
    have hoptions : Source.list Source.string (Document.list (d.options.map .text)).reading =
        .ok d.options := list_reading fun s _ => string_reading s
    exact .cons hkind (.cons (Layout.add_member .needed rfl rfl hoptions) (.nil _))
  have hname : jsonLayout.Takes (d.draftOf none none none none none)
      (Document.member "name" (d.name.map .text)) (d.draftOf d.name none none none none) :=
    .member "name" d.name rfl string_reading rfl rfl rfl
  have htype : jsonLayout.Takes (d.draftOf d.name none none none none)
      (Document.member "type" (d.type.map fun t => .text t.name))
      (d.draftOf d.name d.type none none none) :=
    .member "type" d.type rfl (fun t => by cases t <;> rfl) rfl rfl rfl
  have hdefault : jsonLayout.Takes (d.draftOf d.name d.type none none none)
      (Document.member "default" (d.default.map Value.document))
      (d.draftOf d.name d.type d.default none none) :=
    .member "default" d.default rfl Value.value_reading rfl rfl rfl
  have hrequired : jsonLayout.Takes (d.draftOf d.name d.type d.default none none)
      (Document.member "required" (d.required.map .bool))
      (d.draftOf d.name d.type d.default d.required none) :=
    .member "required" d.required rfl (fun _ => rfl) rfl rfl rfl
  have hdescription : jsonLayout.Takes (d.draftOf d.name d.type d.default d.required none)
      (Document.member "description" (d.description.map .text))
      (d.draftOf d.name d.type d.default d.required d.description) :=
    .member "description" d.description rfl string_reading rfl rfl rfl
  have htakes := hhead.append hname |>.append htype |>.append hdefault |>.append hrequired
    |>.append hdescription
  refine (Layout.read_record htakes).trans ?_
  simp only [jsonLayout, layout, draftOf, Fault.require, bind, Except.bind, join_map_some,
    join_map_some_comp, readBack]
  rfl

theorem readBack_of_not_count {d : FieldDefinition} (h : ∀ n, d.default ≠ some (.count n)) :
    d.readBack = d := by
  rw [readBack, Value.map_readBack_of_not_count h]

theorem keeps_no_count (n : UInt32) :
    jsonLayout.Keeps fun draft => draft.default ≠ some (some (.count n)) where
  slots := by
    simp only [jsonLayout, layout, List.forall_mem_cons, List.not_mem_nil, false_implies,
      implies_true, and_true]
    refine ⟨Slot.keeps .needed ?_, Slot.keeps .needed ?_, Slot.keeps .spare ?_,
      Slot.keeps .spare ?_, Slot.keeps .spare ?_, Slot.keeps .spare ?_, Slot.keeps .spare ?_⟩
    case refine_5 =>
      intro r v draft _ hread hv
      exact Value.ne_count_of_optional hread n (Option.some.inj hv)
    all_goals exact fun _ _ _ h _ => h
  others := nofun

theorem default_ne_count {r : Reading} {d : FieldDefinition} (h : read r = .ok d) (n : UInt32) :
    d.default ≠ some (.count n) := by
  obtain ⟨draft, hdraft, hfinish⟩ := (keeps_no_count n).draft_of_read nofun h
  obtain ⟨kind, -, hfinish⟩ := ok_of_bind hfinish
  obtain ⟨options, -, hfinish⟩ := ok_of_bind hfinish
  obtain rfl := Except.ok.inj hfinish
  exact fun hcount => hdraft (Option.join_eq_some_iff.mp hcount)

end FieldDefinition

/-! ## Declared schemas -/

namespace SchemaDefinition

/-- No field is declared with a count for its default. -/
def NoCount (d : SchemaDefinition) : Prop :=
  ∀ f ∈ d.fields, ∀ n, f.default ≠ some (.count n)

/-- The shape of a declared schema in a JSON text. -/
abbrev jsonLayout : Layout Reading (Except Fault) Draft SchemaDefinition :=
  layout

theorem fits_document (d : SchemaDefinition) : d.document.Fits 4 := by
  refine .record ?_
  simp only [List.forall_mem_append, List.forall_mem_cons, List.not_mem_nil, false_implies,
    implies_true, and_true]
  exact ⟨⟨.text _, Document.fits_member "description" _ .text⟩,
    Document.fits_list _ FieldDefinition.fits_document⟩

theorem read_document {d : SchemaDefinition} (h : d.NoCount) :
    read d.document.reading = .ok d := by
  have hfields : Source.list FieldDefinition.read
      (Document.list (d.fields.map FieldDefinition.document)).reading = .ok d.fields := by
    refine list_reading fun f hf => ?_
    rw [FieldDefinition.read_document, FieldDefinition.readBack_of_not_count (h f hf)]
  have hname : jsonLayout.Takes jsonLayout.start [("name", .text d.name)]
      ⟨some d.name, none, none⟩ :=
    .cons rfl (.nil _)
  have hdescription : jsonLayout.Takes ⟨some d.name, none, none⟩
      (Document.member "description" (d.description.map .text))
      ⟨some d.name, d.description.map some, none⟩ :=
    .member "description" d.description rfl string_reading rfl rfl rfl
  have hlist : jsonLayout.Takes ⟨some d.name, d.description.map some, none⟩
      [("fields", .list (d.fields.map FieldDefinition.document))]
      ⟨some d.name, d.description.map some, some d.fields⟩ :=
    .cons (Layout.add_member .spare rfl rfl hfields) (.nil _)
  refine (Layout.read_record (hname.append hdescription |>.append hlist)).trans ?_
  simp only [jsonLayout, layout, Fault.require, bind, Except.bind, join_map_some]
  rfl

theorem keeps_noCount :
    jsonLayout.Keeps fun draft => ∀ fields, draft.fields = some fields →
      ∀ f ∈ fields, ∀ n, f.default ≠ some (.count n) where
  slots := by
    simp only [jsonLayout, layout, List.forall_mem_cons, List.not_mem_nil, false_implies,
      implies_true, and_true]
    refine ⟨Slot.keeps .needed ?_, Slot.keeps .spare ?_, Slot.keeps .spare ?_⟩
    case refine_3 =>
      intro r fields draft _ hread fields' hfields f hf n
      obtain rfl := Option.some.inj hfields
      obtain ⟨r', hr'⟩ := forall_mem_of_list hread f hf
      exact FieldDefinition.default_ne_count hr' n
    all_goals exact fun _ _ _ h _ => h
  others := nofun

theorem noCount_of_read {r : Reading} {d : SchemaDefinition} (h : read r = .ok d) : d.NoCount := by
  obtain ⟨draft, hdraft, hfinish⟩ := keeps_noCount.draft_of_read nofun h
  obtain ⟨name, -, hfinish⟩ := ok_of_bind hfinish
  obtain rfl := Except.ok.inj hfinish
  intro f hf
  cases hfields : draft.fields with
  | none => simp [hfields] at hf
  | some fields => exact hdraft fields hfields f (by simpa [hfields] using hf)

end SchemaDefinition

/-! ## Definition files -/

namespace DefinitionFile

/-- No field is declared with a count for its default. -/
def NoCount (d : DefinitionFile) : Prop :=
  ∀ s ∈ d.schemas, s.NoCount

/-- The shape of a definition file in JSON. -/
abbrev jsonLayout : Layout Reading (Except Fault) (Option (List SchemaDefinition)) DefinitionFile :=
  layout

theorem fits_document (d : DefinitionFile) : d.document.Fits 6 := by
  refine .record ?_
  simp only [List.forall_mem_cons, List.not_mem_nil, false_implies, implies_true, and_true]
  exact Document.fits_list _ SchemaDefinition.fits_document

theorem read_document {d : DefinitionFile} (h : d.NoCount) : read d.document.reading = .ok d := by
  have hschemas : Source.list SchemaDefinition.read
      (Document.list (d.schemas.map SchemaDefinition.document)).reading = .ok d.schemas :=
    list_reading fun s hs => SchemaDefinition.read_document (h s hs)
  have htakes : jsonLayout.Takes none
      [("schemas", .list (d.schemas.map SchemaDefinition.document))] (some d.schemas) :=
    .cons (Layout.add_member .needed rfl rfl hschemas) (.nil _)
  exact Layout.read_record htakes

theorem keeps_noCount :
    jsonLayout.Keeps fun draft => ∀ schemas, draft = some schemas → ∀ s ∈ schemas, s.NoCount where
  slots := by
    simp only [jsonLayout, layout, List.forall_mem_cons, List.not_mem_nil, false_implies,
      implies_true, and_true]
    refine Slot.keeps .needed ?_
    intro r schemas draft _ hread schemas' hschemas s hs
    obtain rfl := Option.some.inj hschemas
    obtain ⟨r', hr'⟩ := forall_mem_of_list hread s hs
    exact SchemaDefinition.noCount_of_read hr'
  others := nofun

/-- No text is read as a definition file with a count. -/
theorem noCount_of_read {r : Reading} {d : DefinitionFile} (h : read r = .ok d) : d.NoCount := by
  obtain ⟨draft, hdraft, hfinish⟩ := keeps_noCount.draft_of_read nofun h
  cases draft with
  | none => cases hfinish
  | some schemas =>
      obtain rfl := Except.ok.inj hfinish
      exact hdraft schemas rfl

/-- Both forms of a definition file are read back. -/
theorem decodeFile_write {d : DefinitionFile} (h : d.NoCount) {write : Document → String}
    (hwrite : write = compact ∨ write = pretty) :
    DefinitionFormat.json.decodeFile (write d.document) = .ok d := by
  have hfits : d.document.Fits maxDepth := d.fits_document.mono (by decide)
  rcases hwrite with rfl | rfl
  · exact (decode_compact _ hfits).trans (read_document h)
  · exact (decode_pretty _ hfits).trans (read_document h)

/-- The definitions of a JSON text, written anew. -/
def rewrite (write : Document → String) (text : String) : Except Fault String :=
  (DefinitionFormat.json.decodeFile text).map fun d => write d.document

end DefinitionFile

theorem SchemaSet.ofText_congr {format : DefinitionFormat} {text text' : String}
    (h : format.decodeFile text' = format.decodeFile text) :
    ofText format text' = ofText format text := by
  rw [ofText, ofText, extendText, extendText, h]

/-- A definition file comes back from its JSON text, compact or spread over lines. A text that is
written anew is read as before, is not changed by being written anew once more, and loads with the
same schemas or the same error. -/
theorem definitionFile_survives_rewriting {write : Document → String}
    (hwrite : write = compact ∨ write = pretty) :
    (∀ d : DefinitionFile, d.NoCount →
      DefinitionFormat.json.decodeFile (write d.document) = .ok d) ∧
    ∀ text d, DefinitionFormat.json.decodeFile text = .ok d →
      ∃ text', DefinitionFile.rewrite write text = .ok text' ∧
        DefinitionFormat.json.decodeFile text' = .ok d ∧
        DefinitionFile.rewrite write text' = .ok text' ∧
        SchemaSet.ofText .json text' = SchemaSet.ofText .json text := by
  refine ⟨fun d hd => DefinitionFile.decodeFile_write hd hwrite, fun text d htext => ?_⟩
  obtain ⟨r, hr⟩ := exists_reading_of_decode htext
  have hnew := DefinitionFile.decodeFile_write (DefinitionFile.noCount_of_read hr) hwrite
  refine ⟨write d.document, ?_, hnew, ?_, ?_⟩
  · rw [DefinitionFile.rewrite, htext]
    rfl
  · rw [DefinitionFile.rewrite, hnew]
    rfl
  · exact SchemaSet.ofText_congr (hnew.trans htext.symm)

/-- A definition of one option whose default is the least integer. -/
def newestFile : DefinitionFile :=
  ⟨[⟨"sort \"keys\"", some "", [⟨.arg, ["--newest", "-n"], none, some .int,
    some (.int Int64.minValue), some false, none⟩]⟩]⟩

/-- A text as it might be written by hand. -/
def handwrittenText : String :=
  "\x7b\"schemas\": [\x7b\"fields\":[], \"name\": \"\\u0061\"\x7d]\x7d\n"

theorem definitionFile_survives_rewriting_newest :
    newestFile.NoCount ∧
    DefinitionFormat.json.decodeFile (pretty newestFile.document) = .ok newestFile ∧
    DefinitionFormat.json.decodeFile handwrittenText = .ok ⟨[⟨"a", none, []⟩]⟩ ∧
    ∃ text', DefinitionFile.rewrite compact handwrittenText = .ok text' ∧
      DefinitionFormat.json.decodeFile text' = .ok ⟨[⟨"a", none, []⟩]⟩ ∧
      DefinitionFile.rewrite compact text' = .ok text' ∧
      SchemaSet.ofText .json text' = SchemaSet.ofText .json handwrittenText := by
  have hcount : newestFile.NoCount := by
    simp [newestFile, DefinitionFile.NoCount, SchemaDefinition.NoCount]
  have hread : DefinitionFormat.json.decodeFile handwrittenText = .ok ⟨[⟨"a", none, []⟩]⟩ := by
    decide +kernel
  have hpretty := (definitionFile_survives_rewriting (Or.inr rfl)).1 newestFile hcount
  have hcompact := (definitionFile_survives_rewriting (Or.inl rfl)).2 _ _ hread
  exact ⟨hcount, hpretty, hread, hcompact⟩

end CommandSchema
