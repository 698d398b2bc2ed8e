import CommandSchema.Proofs.Parse.Totality
import CommandSchema.Proofs.Text.Decimal

/-!
# Command lines for given values

Every value of the right type can be typed.  An option gets its value in the token of its
long form, or else in the token of its short form, where an empty value needs a token of
its own; a counter is repeated; and positional tokens stand behind the terminator, so that
none of them is taken for an option.
-/

namespace CommandSchema

open Scan

/-! ## Values as tokens -/

/-- The token that reads as a value. -/
def Value.token : Value → String
  | .int n => Text.decimal n.toInt
  | .str text => text
  | _ => ""

theorem ValueType.convert_token {type : ValueType} {v : Value} (h : type.Admits v) :
    type.convert v.token = .ok v := by
  cases h with
  | int n =>
      rw [Value.token, convert, Text.readInteger_decimal]
      rfl
  | string text => rfl

/-- The values that a field can be bound to.  An empty list is what its field is bound to
without any token, so it must be what the field is left to. -/
structure Field.Takes (f : Field) (v : Value) : Prop where
  admits : f.kind.Admits v
  empty : v = .list [] → f.required = false ∧ (f.default = none ∨ f.default = some (.list []))

namespace Field

/-- One use of an option, with or without a value. -/
def use (f : Field) (value : Option String) : List Item :=
  match f.long, f.short, value with
  | some l, _, _ => [.long l (value.map .attached)]
  | none, some c, none => [.short [c] none]
  | none, some c, some v => [.short [] (some (c, if v = "" then .separate v else .attached v))]
  | none, none, _ => []

/-- The items that bind an option to a value. -/
def items (f : Field) (v : Value) : List Item :=
  match f.kind, v with
  | .flag, .bool true => f.use none
  | .counter, .count n => (List.replicate n.toNat (f.use none)).flatten
  | .valued _, v => f.use (some v.token)
  | _, _ => []

/-- The positional tokens that bind a field to a value. -/
def share (f : Field) (v : Value) : List String :=
  match f.kind, v with
  | .positional _, v => [v.token]
  | .positionalList, .list items => items
  | _, _ => []

/-- Whether the uses of an option may have a value: the one of a switch has none, and any
other one has a value that converts. -/
inductive Accepts (f : Field) : Option String → Prop
  | switch (kind : f.kind.isSwitch = true) : Accepts f none
  | value {type : ValueType} {raw : String} {v : Value} (kind : f.kind = .valued type)
      (converts : type.convert raw = .ok v) : Accepts f (some raw)

end Field

/-! ## Uses of one option -/

section Use

variable {s : Schema} {f : Field}

theorem fits_attached {type : ValueType} {raw : String} {v : Value}
    (h : type.convert raw = .ok v) : (Supply.attached raw).Fits type := by
  constructor
  · intro w hw
    cases hw
  · exact ⟨v, h⟩

/-- Every option has a form in which it can be used as it is to be. -/
theorem exists_use (hf : f ∈ s.fields) {value : Option String} (h : f.Accepts value) :
    ∃ item form, f.use value = [item] ∧ item.Valid s ∧ item.positionals = [] ∧
      item.occurrences = [⟨form, value⟩] ∧ f.answersTo form = true := by
  cases hlong : f.long with
  | some l =>
      refine ⟨.long l (value.map .attached), .long l, by simp [Field.use, hlong], ?_, rfl, ?_,
        Field.answersTo_long hlong⟩
      · cases h with
        | switch kind => exact .longSwitch hf hlong kind
        | value kind converts => exact .longValue hf hlong kind (fits_attached converts)
      · cases value <;> rfl
  | none =>
      cases hshort : f.short with
      | none =>
          have hpos : f.kind.isPositional = false := by
            cases h with
            | switch kind => cases hk : f.kind <;> simp [hk, FieldKind.isSwitch] at kind ⊢ <;> rfl
            | value kind converts => rw [kind]; rfl
          rcases (s.wellFormed hf).option_form hpos with hform | hform
          · exact absurd hshort hform
          · exact absurd hlong hform
      | some c =>
          cases h with
          | switch kind =>
              refine ⟨.short [c] none, .short c, by simp [Field.use, hlong, hshort], ?_, rfl, rfl,
                Field.answersTo_short hshort⟩
              refine .cluster (by simp) fun d hd => ?_
              obtain rfl := List.mem_singleton.mp hd
              exact ⟨f, hf, hshort, kind⟩
          | @value type raw v kind converts =>
              refine ⟨.short [] (some (c, if raw = "" then .separate raw else .attached raw)),
                .short c, by simp [Field.use, hlong, hshort], ?_, rfl, ?_,
                Field.answersTo_short hshort⟩
              · by_cases hraw : raw = ""
                · subst hraw
                  exact .clusterValue (by simp) hf hshort kind (Supply.fits_separate rfl converts)
                    (by simp)
                · rw [if_neg hraw]
                  exact .clusterValue (by simp) hf hshort kind (fits_attached converts)
                    (by simpa using hraw)
              · by_cases hraw : raw = ""
                · simp [Item.occurrences, hraw, Supply.value]
                · simp [Item.occurrences, hraw, Supply.value]

/-- Items that say something about one field, and nothing about others. -/
structure Field.Speaks (s : Schema) (f : Field) (items : List Item) : Prop where
  valid : ∀ item ∈ items, item.Valid s
  options : items.flatMap Item.positionals = []
  forms : ∀ o ∈ items.flatMap Item.occurrences, f.answersTo o.form = true

theorem Field.Speaks.nil : f.Speaks s [] :=
  ⟨by simp, rfl, by simp⟩

theorem Field.Speaks.append {items items' : List Item} (h : f.Speaks s items)
    (h' : f.Speaks s items') : f.Speaks s (items ++ items') := by
  constructor
  · intro item hitem
    rcases List.mem_append.mp hitem with hitem | hitem
    · exact h.valid item hitem
    · exact h'.valid item hitem
  · rw [List.flatMap_append, h.options, h'.options, List.append_nil]
  · intro o ho
    rw [List.flatMap_append, List.mem_append] at ho
    rcases ho with ho | ho
    · exact h.forms o ho
    · exact h'.forms o ho

theorem speaks_use (hf : f ∈ s.fields) {value : Option String} (h : f.Accepts value) :
    f.Speaks s (f.use value) := by
  obtain ⟨item, form, huse, hvalid, hpositionals, hoccurs, hform⟩ := exists_use hf h
  rw [huse]
  constructor
  · intro item' hitem
    rwa [List.mem_singleton.mp hitem]
  · simpa using hpositionals
  · intro o ho
    have ho' : o = ⟨form, value⟩ := by simpa [hoccurs] using ho
    rwa [ho']

theorem speaks_flatten_replicate {items : List Item} (h : f.Speaks s items) (n : ℕ) :
    f.Speaks s (List.replicate n items).flatten := by
  induction n with
  | zero => exact Field.Speaks.nil
  | succ n ih =>
      rw [List.replicate_succ, List.flatten_cons]
      exact h.append ih

theorem speaks_items (hf : f ∈ s.fields) {v : Value} (h : f.kind.Admits v) :
    f.Speaks s (f.items v) := by
  unfold Field.items
  split
  · rename_i hkind
    exact speaks_use hf (.switch (by rw [hkind]; rfl))
  · rename_i n hkind
    exact speaks_flatten_replicate (speaks_use hf (.switch (by rw [hkind]; rfl))) _
  · rename_i type v hkind
    rw [hkind] at h
    cases h with
    | valued hv => exact speaks_use hf (.value hkind (ValueType.convert_token hv))
  · exact Field.Speaks.nil

theorem occurrences_use (hf : f ∈ s.fields) {value : Option String} (h : f.Accepts value) :
    ∃ form, (f.use value).flatMap Item.occurrences = [⟨form, value⟩] := by
  obtain ⟨item, form, huse, -, -, hoccurs, -⟩ := exists_use hf h
  exact ⟨form, by simp [huse, hoccurs]⟩

theorem length_repeated {items : List Item} (h : (items.flatMap Item.occurrences).length = 1)
    (n : ℕ) : ((List.replicate n items).flatten.flatMap Item.occurrences).length = n := by
  induction n with
  | zero => rfl
  | succ n ih =>
      rw [List.replicate_succ, List.flatten_cons, List.flatMap_append, List.length_append, h, ih]
      omega

/-- What the items of an option say is the value that they are made for. -/
theorem slot_items (hf : f ∈ s.fields) (hoption : f.kind.isPositional = false) {v : Value}
    (h : f.kind.Admits v) :
    (f.slot ((f.items v).flatMap Item.occurrences)).getD f.defaultValue = v := by
  have huses : f.uses ((f.items v).flatMap Item.occurrences) =
      (f.items v).flatMap Item.occurrences :=
    List.filter_eq_self.mpr (speaks_items hf h).forms
  cases hk : f.kind with
  | flag =>
      rw [hk] at h
      cases h with
      | flag b =>
          cases b with
          | false =>
              have hitems : f.items (.bool false) = [] := by simp [Field.items, hk]
              simp [hitems, Field.slot, Field.uses, hk, Field.defaultValue]
          | true =>
              have hitems : f.items (.bool true) = f.use none := by simp [Field.items, hk]
              obtain ⟨form, huse⟩ := occurrences_use hf (.switch (by rw [hk]; rfl))
              rw [hitems, huse] at huses ⊢
              simp [Field.slot, huses, hk]
  | counter =>
      rw [hk] at h
      cases h with
      | counter n =>
          have hitems : f.items (.count n) = (List.replicate n.toNat (f.use none)).flatten := by
            simp [Field.items, hk]
          have hlength : ((f.items (.count n)).flatMap Item.occurrences).length = n.toNat := by
            obtain ⟨form, huse⟩ := occurrences_use hf (.switch (by rw [hk]; rfl))
            rw [hitems]
            exact length_repeated (by rw [huse]; rfl) _
          by_cases hn : n.toNat = 0
          · have hnil : (f.items (.count n)).flatMap Item.occurrences = [] := by
              rw [← List.length_eq_zero_iff, hlength, hn]
            have hzero : n = 0 := UInt32.toNat_inj.mp hn
            rw [hnil] at huses ⊢
            simp [Field.slot, huses, hk, Field.defaultValue, hzero]
          · have hne : (f.items (.count n)).flatMap Item.occurrences ≠ [] := by
              intro hnil
              rw [hnil] at hlength
              exact hn hlength.symm
            have hlt := n.toNat_lt
            have hmin : min n.toNat (2 ^ 32 - 1) = n.toNat := by omega
            rw [Field.slot, hk]
            simp only [huses, hlength, if_neg hne, hmin, UInt32.ofNat_toNat, Option.getD_some]
  | valued type =>
      rw [hk] at h
      cases h with
      | valued hv =>
          have hconvert := ValueType.convert_token hv
          have hitems : f.items v = f.use (some v.token) := by simp [Field.items, hk]
          obtain ⟨form, huse⟩ := occurrences_use hf (.value hk hconvert)
          rw [hitems, huse] at huses ⊢
          simp [Field.slot, huses, hk, hconvert, Except.toOption]
  | positional type => simp [hk, FieldKind.isPositional] at hoption
  | positionalList => simp [hk, FieldKind.isPositional] at hoption

end Use

/-! ## The command line of an assignment -/

/-- A command line that binds each field to a value. -/
def Schema.assignment (s : Schema) (values : Field → Value) : Line where
  items := s.fields.flatMap fun f => f.items (values f)
  tail := some (s.positionalEntries.flatMap fun (_, f) => f.share (values f))

section Assignment

variable {s : Schema} {values : Field → Value}

theorem assignment_valid (h : ∀ f ∈ s.fields, f.Takes (values f)) :
    (s.assignment values).Valid s := by
  intro item hitem
  obtain ⟨f, hf, hitem⟩ := List.mem_flatMap.mp hitem
  exact (speaks_items hf (h f hf).admits).valid item hitem

/-- Among the options of the line a field finds its own and no others. -/
theorem uses_assignment (h : ∀ f ∈ s.fields, f.Takes (values f)) {f : Field}
    (hf : f ∈ s.fields) :
    f.uses (s.assignment values).occurrences =
      f.uses ((f.items (values f)).flatMap Item.occurrences) := by
  have hothers : ∀ fields : List Field, fields ⊆ s.fields → f ∉ fields →
      f.uses ((fields.flatMap fun g => g.items (values g)).flatMap Item.occurrences) = [] := by
    intro fields hsub hnot
    apply List.filter_eq_nil_iff.mpr
    intro o ho hform
    obtain ⟨item, hitem, ho⟩ := List.mem_flatMap.mp ho
    obtain ⟨g, hg, hitem⟩ := List.mem_flatMap.mp hitem
    have hspeaks := speaks_items (hsub hg) (h g (hsub hg)).admits
    have hform' := hspeaks.forms o (List.mem_flatMap.mpr ⟨item, hitem, ho⟩)
    obtain rfl := eq_of_answersTo s hf (hsub hg) hform hform'
    exact hnot hg
  obtain ⟨xs, ys, hsplit⟩ := List.append_of_mem hf
  obtain ⟨hxs, hys⟩ := s.not_mem_of_split hsplit
  have hfront := hothers xs (by simp [hsplit]) hxs
  have hback := hothers ys (by simp [hsplit]) hys
  rw [Line.occurrences, Schema.assignment, hsplit, List.flatMap_append, List.flatMap_cons,
    List.flatMap_append, List.flatMap_append, Field.uses_append, Field.uses_append, hfront, hback]
  simp

theorem slot_assignment (h : ∀ f ∈ s.fields, f.Takes (values f)) {f : Field}
    (hf : f ∈ s.fields) :
    f.slot (s.assignment values).occurrences =
      f.slot ((f.items (values f)).flatMap Item.occurrences) := by
  unfold Field.slot
  rw [uses_assignment h hf]

/-- Behind the terminator the first field has its token before those of the list. -/
theorem positionals_assignment (h : ∀ f ∈ s.fields, f.Takes (values f)) :
    (s.assignment values).positionals =
      (s.first?.toList.flatMap fun (_, f) => f.share (values f)) ++
        s.list?.toList.flatMap fun (_, f) => f.share (values f) := by
  have hitems : (s.assignment values).items.flatMap Item.positionals = [] := by
    apply List.flatMap_eq_nil_iff.mpr
    intro item hitem
    obtain ⟨f, hf, hitem⟩ := List.mem_flatMap.mp hitem
    exact List.flatMap_eq_nil_iff.mp (speaks_items hf (h f hf).admits).options item hitem
  rw [Line.positionals, hitems, List.nil_append, Schema.assignment, Option.getD_some,
    s.positionalEntries_eq, List.flatMap_append]

theorem share_positional {f : Field} {type : ValueType} (hk : f.kind = .positional type)
    (v : Value) : f.share v = [v.token] := by
  simp [Field.share, hk]

theorem first_assignment (h : ∀ f ∈ s.fields, f.Takes (values f)) {f : Field} {type : ValueType}
    (hf : f ∈ s.fields) (hk : f.kind = .positional type) :
    (s.assignment values).positionals.head? = some (values f).token := by
  obtain ⟨i, hi⟩ := List.getElem?_of_mem hf
  have hfirst := s.first?_eq_some_iff.mpr ⟨hi, type, hk⟩
  rw [positionals_assignment h, hfirst]
  simp [share_positional hk]

theorem remaining_assignment (h : ∀ f ∈ s.fields, f.Takes (values f)) :
    (s.assignment values).remaining s =
      s.list?.toList.flatMap fun (_, f) => f.share (values f) := by
  rw [Line.remaining, positionals_assignment h]
  cases hfirst : s.first? with
  | none =>
      have htakes : ¬s.takesFirst = true := by
        rw [Line.takesFirst_eq_true_iff]
        rintro ⟨f, hf, type, hk⟩
        exact s.first?_eq_none_iff.mp hfirst f hf type hk
      rw [if_neg htakes]
      rfl
  | some entry =>
      obtain ⟨i, f⟩ := entry
      obtain ⟨hi, type, hk⟩ := s.first?_eq_some_iff.mp hfirst
      have htakes : s.takesFirst = true :=
        Line.takesFirst_eq_true_iff.mpr ⟨f, List.mem_of_getElem? hi, type, hk⟩
      rw [if_pos htakes]
      simp [share_positional hk]

theorem rest_assignment (h : ∀ f ∈ s.fields, f.Takes (values f)) {f : Field}
    (hf : f ∈ s.fields) (hk : f.kind = .positionalList) :
    values f = .list ((s.assignment values).remaining s) := by
  obtain ⟨i, hi⟩ := List.getElem?_of_mem hf
  have hlist := s.list?_eq_some_iff.mpr ⟨hi, hk⟩
  have hadmits := (h f hf).admits
  rw [hk] at hadmits
  cases hv : values f with
  | list items => simp [remaining_assignment h, hlist, Field.share, hk, hv]
  | _ =>
      rw [hv] at hadmits
      cases hadmits

/-- Every field is settled with the value that is meant for it. -/
theorem settle_assignment (h : ∀ f ∈ s.fields, f.Takes (values f)) {f : Field}
    (hf : f ∈ s.fields) :
    (((s.assignment values).given s f).getD f.defaultValue) = values f := by
  have hadmits := (h f hf).admits
  cases hk : f.kind with
  | positional type =>
      rw [hk] at hadmits
      cases hadmits with
      | positional hv =>
          rw [Line.given, hk]
          simp [first_assignment h hf hk, ValueType.convert_token hv, Except.toOption]
  | positionalList =>
      have hrest := rest_assignment h hf hk
      by_cases hnil : (s.assignment values).remaining s = []
      · rw [hnil] at hrest
        obtain ⟨-, hdefault⟩ := (h f hf).empty hrest
        have hnone : (s.assignment values).given s f = none := by simp [Line.given, hk, hnil]
        rw [hnone, hrest, Option.getD_none, Field.defaultValue, hk]
        rcases hdefault with hdefault | hdefault
        · simp [hdefault]
        · simp [hdefault]
      · rw [hrest]
        simp [Line.given, hk, hnil]
  | _ =>
      have hoption : f.kind.isPositional = false := by rw [hk]; rfl
      have hgiven : (s.assignment values).given s f = f.slot (s.assignment values).occurrences := by
        simp [Line.given, hk]
      rw [hgiven, slot_assignment h hf]
      exact slot_items hf hoption hadmits

/-- The line fails no check. -/
theorem fits_assignment (h : ∀ f ∈ s.fields, f.Takes (values f)) :
    ∀ rank e, ¬(s.assignment values).Misfit s rank e := by
  intro rank e he
  cases he with
  | @firstInvalid f type token reason mem kind first fault =>
      have hadmits := (h f mem).admits
      rw [kind] at hadmits
      cases hadmits with
      | positional hv =>
          rw [first_assignment h mem kind] at first
          obtain rfl := Option.some.inj first
          rw [ValueType.convert_token hv] at fault
          cases fault
  | @firstMissing f type mem kind required none =>
      have hfirst := first_assignment h mem kind
      rw [none] at hfirst
      cases hfirst
  | @restMissing f mem kind required none =>
      have hrest := rest_assignment h mem kind
      rw [none] at hrest
      obtain ⟨hoptional, -⟩ := (h f mem).empty hrest
      rw [hoptional] at required
      cases required
  | @leftOver token more listless rest =>
      rw [remaining_assignment h, s.list?_eq_none_iff.mpr listless] at rest
      cases rest
  | @optionMissing earlier later f fields first unmet =>
      have hf : f ∈ s.fields := by simp [fields]
      obtain ⟨type, hk⟩ := unmet.valued
      have hadmits := (h f hf).admits
      have hforms := (speaks_items hf hadmits).forms
      rw [hk] at hadmits
      cases hadmits with
      | valued hv =>
          have hitems : f.items (values f) = f.use (some (values f).token) := by
            simp [Field.items, hk]
          obtain ⟨form, huse⟩ := occurrences_use hf (.value hk (ValueType.convert_token hv))
          have hunused := unmet.unused
          rw [uses_assignment h hf, Field.uses, List.filter_eq_self.mpr hforms, hitems, huse]
            at hunused
          cases hunused

/-- Every assignment of values of the right types can be typed on a command line: there are
tokens from which each field gets the value that is meant for it. -/
theorem parse_assignment (h : ∀ f ∈ s.fields, f.Takes (values f)) :
    ∃ b, s.parse (s.assignment values).tokens = .ok b ∧
      b.entries.map (fun entry => (entry.name, entry.value)) =
        s.fields.map fun f => (f.name, values f) := by
  have hline := assignment_valid h
  refine ⟨(s.assignment values).bindings s, ?_, ?_⟩
  · rw [s.parse_eq_bind, scan_line hline, Except.bind]
    rcases Schema.bind_line hline with ⟨rank, e, hfirst, -⟩ | ⟨-, hbind⟩
    · exact absurd hfirst.misfit (fits_assignment h rank e)
    · exact hbind
  · rw [Line.bindings, List.map_map]
    apply List.map_congr_left
    intro f hf
    exact Prod.ext rfl (settle_assignment h hf)

end Assignment

/-- Values for the fields of `copyCommand`, by name. -/
def copyValues (f : Field) : Value :=
  match f.name with
  | "force" => .bool true
  | "v" => .count 2
  | "jobs" => .int (-9223372036854775808)
  | "source" => .str "--"
  | _ => .list []

theorem parse_assignment_copy :
    (copyCommand.assignment copyValues).tokens =
      ["--force", "-v", "-v", "--jobs=-9223372036854775808", "--", "--"] ∧
    ∃ b, copyCommand.parse (copyCommand.assignment copyValues).tokens = .ok b ∧
      b.entries.map (fun entry => (entry.name, entry.value)) =
        [("force", .bool true), ("v", .count 2), ("jobs", .int (-9223372036854775808)),
          ("source", .str "--"), ("targets", .list [])] := by
  have htakes : ∀ f ∈ copyCommand.fields, f.Takes (copyValues f) := by
    intro f hf
    simp only [copyCommand, List.mem_cons, List.not_mem_nil, or_false] at hf
    rcases hf with rfl | rfl | rfl | rfl | rfl
    · exact ⟨.flag true, by decide⟩
    · exact ⟨.counter 2, by decide⟩
    · exact ⟨.valued (.int _), by decide⟩
    · exact ⟨.positional (.string "--"), by decide⟩
    · exact ⟨.positionalList [], by decide⟩
  exact ⟨by decide, parse_assignment htakes⟩

end CommandSchema
