import CommandSchema.Proofs.Field.Lossless
import CommandSchema.Proofs.Parse.Totality
import CommandSchema.Proofs.Rust.Literal
import CommandSchema.Proofs.Schema.Validation

/-!
# Renderings tell results apart

The values of a result stand one behind the other on its line, and only the quotation marks keep a
text from running into what follows it.  That is enough: what can follow a value starts with a blank
or with the mark at the end of the line, and the kinds of the fields say what sort of value to
expect.  The same holds of the results as records.
-/

namespace CommandSchema

/-! ## Texts -/

/-- No quoted text is the start of another one. -/
theorem Text.eq_of_quote_starts {s s' : String} (h : (quote s).toList <+: (quote s').toList) :
    s = s' := by
  obtain ⟨more, hmore⟩ := h
  have hread : Rust.Mode.run .blank (quote s').toList = some (.blank, [.string s']) :=
    Rust.closed_quote s'
  rw [← hmore, Rust.Mode.run_append_of_run (Rust.closed_quote s)] at hread
  cases hrun : Rust.Mode.run .blank more with
  | none => simp [hrun] at hread
  | some reached =>
      obtain ⟨last, tokens⟩ := reached
      simp [hrun] at hread
      exact hread.2.1

/-- A quoted text is told apart from any other, whatever follows them. -/
theorem Text.quote_append_inj {s s' : String} {rest rest' : List Char}
    (h : (quote s).toList ++ rest = (quote s').toList ++ rest') : s = s' ∧ rest = rest' := by
  have hs : s = s' := by
    rcases List.prefix_or_prefix_of_prefix ⟨rest, h⟩ ⟨rest', rfl⟩ with hstarts | hstarts
    · exact eq_of_quote_starts hstarts
    · exact (eq_of_quote_starts hstarts).symm
  subst hs
  exact ⟨rfl, List.append_cancel_left h⟩

/-- The texts of a list, up to its end. -/
def Text.quotedItems (items : List String) : List Char :=
  [',', ' '].intercalate (items.map fun s => (quote s).toList) ++ [']']

theorem Text.quotedItems_cons (s : String) (items : List String) :
    quotedItems (s :: items) =
      (quote s).toList ++ if items = [] then [']'] else ',' :: ' ' :: quotedItems items := by
  cases items with
  | nil => simp [quotedItems, List.intercalate_singleton]
  | cons s' items => simp [quotedItems, List.intercalate_cons_cons]

theorem Text.quotedItems_head (s : String) (items : List String) :
    ∃ more, quotedItems (s :: items) = '"' :: more := by
  rw [quotedItems_cons, quote, String.toList_ofList]
  exact ⟨_, rfl⟩

/-- A list of quoted texts is told apart from any other, whatever follows them. -/
theorem Text.quotedItems_append_inj {items items' : List String} {rest rest' : List Char}
    (h : quotedItems items ++ rest = quotedItems items' ++ rest') :
    items = items' ∧ rest = rest' := by
  induction items generalizing items' with
  | nil =>
      cases items' with
      | nil => exact ⟨rfl, List.append_cancel_left h⟩
      | cons s' items' =>
          obtain ⟨more, hmore⟩ := quotedItems_head s' items'
          rw [hmore] at h
          exact absurd (List.cons.inj h).1 (by decide)
  | cons s items ih =>
      cases items' with
      | nil =>
          obtain ⟨more, hmore⟩ := quotedItems_head s items
          rw [hmore] at h
          exact absurd (List.cons.inj h).1 (by decide)
      | cons s' items' =>
          rw [quotedItems_cons, quotedItems_cons, List.append_assoc, List.append_assoc] at h
          obtain ⟨rfl, htail⟩ := quote_append_inj h
          by_cases hitems : items = []
          · by_cases hitems' : items' = []
            · rw [if_pos hitems, if_pos hitems'] at htail
              exact ⟨by rw [hitems, hitems'], List.append_cancel_left htail⟩
            · rw [if_pos hitems, if_neg hitems'] at htail
              exact absurd (List.cons.inj htail).1 (by decide)
          · by_cases hitems' : items' = []
            · rw [if_neg hitems, if_pos hitems'] at htail
              exact absurd (List.cons.inj htail).1 (by decide)
            · rw [if_neg hitems, if_neg hitems'] at htail
              obtain ⟨rfl, hrest⟩ := ih (List.cons.inj (List.cons.inj htail).2).2
              exact ⟨rfl, hrest⟩

/-! ## Numbers -/

/-- What can follow a value on the line of a result. -/
def EndsShown (rest : List Char) : Prop :=
  ∃ c more, rest = c :: more ∧ (c = ' ' ∨ c = '>')

theorem EndsShown.endsNumber {rest : List Char} (h : EndsShown rest) : Json.EndsNumber rest := by
  obtain ⟨c, more, rfl, hc⟩ := h
  intro d hd
  obtain rfl : c = d := by simpa using hd
  rcases hc with rfl | rfl <;> decide

theorem Text.decimal_append_inj {n n' : ℤ} {rest rest' : List Char} (hn : Json.IsWord n)
    (hn' : Json.IsWord n') (hrest : EndsShown rest) (hrest' : EndsShown rest')
    (h : (decimal n).toList ++ rest = (decimal n').toList ++ rest') : n = n' ∧ rest = rest' := by
  have hread := Json.number_decimal hn hrest.endsNumber
  rw [h, Json.number_decimal hn' hrest'.endsNumber] at hread
  simp only [Prod.mk.injEq, Json.Reading.number.injEq, Json.Numeral.integer.injEq,
    Option.some.injEq] at hread
  exact ⟨hread.1.symm, hread.2.symm⟩

/-! ## Values -/

theorem Value.toList_render_list (items : List String) :
    (Value.list items).render.toList = '[' :: Text.quotedItems items := by
  have hcomma : ", ".toList = [',', ' '] := rfl
  rw [render, String.toList_append, String.toList_append, String.toList_intercalate, hcomma,
    List.map_map]
  rfl

/-- Values of one kind are told apart on the line of a result. -/
theorem Value.render_append_inj {kind : FieldKind} {v v' : Value} (hv : kind.Admits v)
    (hv' : kind.Admits v') {rest rest' : List Char} (hrest : EndsShown rest)
    (hrest' : EndsShown rest') (h : v.render.toList ++ rest = v'.render.toList ++ rest') :
    v = v' ∧ rest = rest' := by
  have htype : ∀ {type : ValueType}, type.Admits v → type.Admits v' → v = v' ∧ rest = rest' := by
    intro type htype htype'
    cases htype with
    | int n =>
        cases htype' with
        | int n' =>
            have hword : ∀ n : Int64, Json.IsWord n.toInt := fun n =>
              ⟨n.le_toInt, Int.lt_trans n.toInt_lt (by decide)⟩
            obtain ⟨hn, hsame⟩ :=
              Text.decimal_append_inj (hword n) (hword n') hrest hrest' h
            exact ⟨congrArg Value.int (Int64.toInt_inj.mp hn), hsame⟩
    | string text =>
        cases htype' with
        | string text' =>
            obtain ⟨rfl, hsame⟩ := Text.quote_append_inj h
            exact ⟨rfl, hsame⟩
  cases hv with
  | flag b =>
      cases hv' with
      | flag b' =>
          cases b <;> cases b'
          · exact ⟨rfl, List.append_cancel_left h⟩
          · exact absurd (List.cons.inj h).1 (by decide)
          · exact absurd (List.cons.inj h).1 (by decide)
          · exact ⟨rfl, List.append_cancel_left h⟩
  | counter n =>
      cases hv' with
      | counter n' =>
          have hword : ∀ n : UInt32, Json.IsWord n.toNat := fun n =>
            ⟨by omega, Int.ofNat_lt.mpr (Nat.lt_trans n.toNat_lt (by decide))⟩
          obtain ⟨hn, hsame⟩ := Text.decimal_append_inj (hword n) (hword n') hrest hrest' h
          exact ⟨congrArg Value.count (UInt32.toNat_inj.mp (Int.ofNat_inj.mp hn)), hsame⟩
  | valued hkind =>
      cases hv' with
      | valued hkind' => exact htype hkind hkind'
  | positional hkind =>
      cases hv' with
      | positional hkind' => exact htype hkind hkind'
  | positionalList items =>
      cases hv' with
      | positionalList items' =>
          rw [toList_render_list, toList_render_list, List.cons_append, List.cons_append] at h
          obtain ⟨rfl, hsame⟩ := Text.quotedItems_append_inj (List.cons.inj h).2
          exact ⟨rfl, hsame⟩

theorem ValueType.Admits.eq_of_readBack {type : ValueType} {v v' : Value} (hv : type.Admits v)
    (hv' : type.Admits v') (h : v.readBack = v'.readBack) : v = v' := by
  cases hv with
  | int n =>
      cases hv' with
      | int n' => exact h
  | string text =>
      cases hv' with
      | string text' => exact h

/-- Values of one kind are told apart by what is read of their documents. -/
theorem Value.eq_of_reading {kind : FieldKind} {v v' : Value} (hv : kind.Admits v)
    (hv' : kind.Admits v') (h : v.document.reading = v'.document.reading) : v = v' := by
  have hback : v.readBack = v'.readBack := by
    have hread := value_reading v
    rw [h, value_reading v'] at hread
    exact (Except.ok.inj hread).symm
  cases hv with
  | flag b =>
      cases hv' with
      | flag b' => exact hback
  | counter n =>
      cases hv' with
      | counter n' =>
          -- a count is read as an integer, but every count as another one
          have hint := congrArg Int64.toInt (Value.int.inj hback)
          rw [toInt_ofNat_count, toInt_ofNat_count] at hint
          exact congrArg Value.count (UInt32.toNat_inj.mp (Int.ofNat_inj.mp hint))
  | valued hkind =>
      cases hv' with
      | valued hkind' => exact hkind.eq_of_readBack hkind' hback
  | positional hkind =>
      cases hv' with
      | positional hkind' => exact hkind.eq_of_readBack hkind' hback
  | positionalList items =>
      cases hv' with
      | positionalList items' => exact hback

/-! ## Lines -/

/-- The members of a result's line, up to the mark at its end. -/
def shownUpTo (value : Field → Value) (fields : List Field) : List Char :=
  fields.flatMap (fun f => (f.shown (value f)).toList) ++ ['>']

theorem shownUpTo_cons (value : Field → Value) (f : Field) (fields : List Field) :
    shownUpTo value (f :: fields) =
      (" " ++ f.name ++ "=").toList ++ ((value f).render.toList ++ shownUpTo value fields) := by
  rw [shownUpTo, List.flatMap_cons, List.append_assoc, Field.shown, String.toList_append,
    List.append_assoc]
  rfl

theorem endsShown_shownUpTo (value : Field → Value) (fields : List Field) :
    EndsShown (shownUpTo value fields) := by
  cases fields with
  | nil => exact ⟨'>', [], rfl, .inr rfl⟩
  | cons f fields =>
      rw [shownUpTo_cons, String.toList_append, String.toList_append]
      exact ⟨' ', _, rfl, .inl rfl⟩

/-- The members of a line tell what the values are. -/
theorem eq_of_shownUpTo {fields : List Field} {value value' : Field → Value}
    (hvalue : ∀ f ∈ fields, f.kind.Admits (value f))
    (hvalue' : ∀ f ∈ fields, f.kind.Admits (value' f))
    (h : shownUpTo value fields = shownUpTo value' fields) :
    ∀ f ∈ fields, value f = value' f := by
  induction fields with
  | nil => simp
  | cons f fields ih =>
      rw [List.forall_mem_cons] at hvalue hvalue'
      rw [shownUpTo_cons, shownUpTo_cons] at h
      obtain ⟨hfirst, hrest⟩ := Value.render_append_inj hvalue.1 hvalue'.1
        (endsShown_shownUpTo value fields) (endsShown_shownUpTo value' fields)
        (List.append_cancel_left h)
      exact List.forall_mem_cons.mpr ⟨hfirst, ih hvalue.2 hvalue'.2 hrest⟩

/-! ## Results -/

namespace Bindings.Assigns

variable {s : Schema} {b b' : Bindings} {value value' : Field → Value}

theorem beq_iff (h : b.Assigns s value) (h' : b'.Assigns s value') :
    (b == b') = true ↔ ∀ f ∈ s.fields, value f = value' f := by
  rw [h.beq_eq_all h', List.all_eq_true]
  exact forall₂_congr fun f _ => beq_iff_eq

theorem toList_render (h : b.Assigns s value) :
    b.render.toList = ("<" ++ s.name).toList ++ shownUpTo value s.fields := by
  have hb : b.render = _ := h.render_eq b.schema
  rw [hb, h.schema, String.toList_append, String.toList_append, String.toList_join,
    List.flatMap_map, List.append_assoc]
  rfl

theorem render_eq_iff (h : b.Assigns s value) (h' : b'.Assigns s value') :
    b.render = b'.render ↔ ∀ f ∈ s.fields, value f = value' f := by
  rw [← String.toList_inj, h.toList_render, h'.toList_render]
  constructor
  · intro hline
    exact eq_of_shownUpTo h.typed h'.typed (List.append_cancel_left hline)
  · intro hsame
    have hshown : s.fields.flatMap (fun f => (f.shown (value f)).toList) =
        s.fields.flatMap fun f => (f.shown (value' f)).toList :=
      List.flatMap_congr fun f hf => by rw [hsame f hf]
    rw [shownUpTo, hshown, shownUpTo]

theorem document_eq (h : b.Assigns s value) :
    b.document = .record (s.fields.map fun f => (f.name, (value f).document)) :=
  congrArg Document.record (h.map_entries fun name v => (name, v.document))

/-- The record of a result is read as one member for each field. -/
theorem read_document (h : b.Assigns s value) :
    Json.read (Json.compact b.document) =
      (.record (s.fields.map fun f => (some f.name, (value f).document.reading)) true, true) := by
  have hfits : b.document.Fits 2 := by
    rw [h.document_eq]
    refine .record ?_
    rw [List.forall_mem_map]
    exact fun f _ => (value f).fits_document
  rw [Json.read_compact (hfits.mono (by decide)), h.document_eq, Document.reading,
    Document.memberReadings_eq_map, List.map_map]
  rfl

theorem document_eq_iff (h : b.Assigns s value) (h' : b'.Assigns s value') :
    Json.compact b.document = Json.compact b'.document ↔
      ∀ f ∈ s.fields, value f = value' f := by
  constructor
  · intro htext f hf
    have hread := h.read_document
    rw [htext, h'.read_document] at hread
    simp only [Prod.mk.injEq, Json.Reading.record.injEq, and_true, List.map_inj_left] at hread
    exact Value.eq_of_reading (h.typed f hf) (h'.typed f hf) (hread f hf).2.symm
  · intro hsame
    have hmembers : s.fields.map (fun f => (f.name, (value f).document)) =
        s.fields.map fun f => (f.name, (value' f).document) :=
      List.map_inj_left.mpr fun f hf => by rw [hsame f hf]
    rw [h.document_eq, hmembers, h'.document_eq]

end Bindings.Assigns

/-- The renderings of two results for one schema agree exactly when the results do, on the line as
in the record.  What is read of the record is one member for each field, in declaration order and
under names that are all distinct, with the value that the field has. -/
theorem renderings_faithful {s : Schema} {tokens tokens' : List String} {b b' : Bindings}
    (h : s.parse tokens = .ok b) (h' : s.parse tokens' = .ok b') :
    ((b == b') = true ↔ b.render = b'.render) ∧
    ((b == b') = true ↔ Json.compact b.document = Json.compact b'.document) ∧
    Json.read (Json.compact b.document) =
      (.record (b.entries.map fun e => (some e.name, e.value.document.reading)) true, true) ∧
    b.entries.map Binding.name = s.fields.map Field.name ∧ (b.entries.map Binding.name).Nodup := by
  obtain ⟨value, hb⟩ := exists_assigns_of_parse h
  obtain ⟨value', hb'⟩ := exists_assigns_of_parse h'
  have hnames := hb.map_entries fun name _ => name
  refine ⟨?_, ?_, ?_, hnames, ?_⟩
  · rw [hb.beq_iff hb', hb.render_eq_iff hb']
  · rw [hb.beq_iff hb', hb.document_eq_iff hb']
  · rw [hb.read_document, hb.map_entries fun name v => (some name, v.document.reading)]
  · rw [hnames]
    exact ((problems_eq_nil_iff_consistent s.fields).mp s.consistent).names_distinct

/-- What `copyCommand` gives for a source and targets. -/
def copied (targets : List String) : Bindings where
  schema := "copy"
  entries := [⟨"force", .bool false, false⟩, ⟨"v", .count 0, false⟩, ⟨"jobs", .int 2, false⟩,
    ⟨"source", .str "a", true⟩, ⟨"targets", .list targets, true⟩]

/-- One target with quotation marks and a comma does not look like two. -/
theorem renderings_faithful_copy :
    copyCommand.parse ["a", "b\", \"c"] = .ok (copied ["b\", \"c"]) ∧
      copyCommand.parse ["a", "b", "c"] = .ok (copied ["b", "c"]) ∧
      (copied ["b\", \"c"]).render ≠ (copied ["b", "c"]).render := by
  have h : copyCommand.parse ["a", "b\", \"c"] = .ok (copied ["b\", \"c"]) := by decide
  have h' : copyCommand.parse ["a", "b", "c"] = .ok (copied ["b", "c"]) := by decide
  have hdiffer : (copied ["b\", \"c"] == copied ["b", "c"]) = false := by decide
  refine ⟨h, h', ?_⟩
  intro hsame
  have hequal := (renderings_faithful h h').1.mpr hsame
  rw [hdiffer] at hequal
  cases hequal

end CommandSchema
