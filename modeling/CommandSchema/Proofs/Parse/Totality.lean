import CommandSchema.Proofs.Fallible
import CommandSchema.Proofs.Parse.Rejection

/-!
# Results of a parse

A parse that succeeds binds every field once, in declaration order, to a value of the
field's kind.  The value is the one that the command line supplies, or else the
default.  On the way the machine never points outside of its slots.
-/

namespace CommandSchema

open Scan

/-! ## Types of values -/

/-- The values of a type. -/
inductive ValueType.Admits : ValueType → Value → Prop
  | int (n : Int64) : Admits .int (.int n)
  | string (text : String) : Admits .string (.str text)

/-- The values of a field of a kind. -/
inductive FieldKind.Admits : FieldKind → Value → Prop
  | flag (b : Bool) : Admits .flag (.bool b)
  | counter (n : UInt32) : Admits .counter (.count n)
  | valued {type : ValueType} {v : Value} (h : type.Admits v) : Admits (.valued type) v
  | positional {type : ValueType} {v : Value} (h : type.Admits v) : Admits (.positional type) v
  | positionalList (items : List String) : Admits .positionalList (.list items)

theorem ValueType.admits_of_convert {type : ValueType} {raw : String} {v : Value}
    (h : type.convert raw = .ok v) : type.Admits v := by
  cases type with
  | int =>
      rw [convert] at h
      cases hread : Text.readInteger raw with
      | error reason =>
          rw [hread] at h
          cases h
      | ok n =>
          rw [hread] at h
          obtain rfl := Except.ok.inj h
          exact .int n
  | string =>
      obtain rfl := Except.ok.inj h
      exact .string raw

theorem ValueType.admits_of_typeName {type : ValueType} {v : Value}
    (h : v.typeName = type.name) : type.Admits v := by
  cases type <;> cases v <;> simp [Value.typeName, ValueType.name] at h
  · exact .int _
  · exact .string _

theorem ValueType.admits_zero (type : ValueType) : type.Admits type.zero := by
  cases type with
  | int => exact .int 0
  | string => exact .string ""

/-- Validation leaves no default of another type. -/
theorem Field.WellFormed.admits_default {f : Field} {type : ValueType} (h : f.WellFormed)
    (hkind : f.kind.defaultTypeName? = some type.name) :
    type.Admits (f.default.getD type.zero) := by
  cases hdefault : f.default with
  | none => exact type.admits_zero
  | some v =>
      have hname := (h.default v hdefault).2
      rw [hkind] at hname
      exact ValueType.admits_of_typeName (Option.some.inj hname).symm

theorem Field.WellFormed.admits_defaultValue {f : Field} (h : f.WellFormed) :
    f.kind.Admits f.defaultValue := by
  unfold Field.defaultValue
  cases hkind : f.kind with
  | flag => exact .flag false
  | counter => exact .counter 0
  | valued type => exact .valued (h.admits_default (by rw [hkind]; rfl))
  | positional type => exact .positional (h.admits_default (by rw [hkind]; rfl))
  | positionalList =>
      cases hdefault : f.default with
      | none => exact .positionalList []
      | some v =>
          have hname := (h.default v hdefault).2
          rw [hkind] at hname
          cases v <;> simp [FieldKind.defaultTypeName?, Value.typeName] at hname
          exact .positionalList _

/-! ## What a line gives -/

theorem admits_of_toOption {type : ValueType} {raw : String} {v : Value}
    (h : (type.convert raw).toOption = some v) : type.Admits v := by
  cases hv : type.convert raw with
  | error reason =>
      rw [hv] at h
      cases h
  | ok value =>
      rw [hv] at h
      obtain rfl := Option.some.inj h
      exact ValueType.admits_of_convert hv

theorem Field.admits_slot {f : Field} {occs : List Occurrence} {v : Value}
    (h : f.slot occs = some v) : f.kind.Admits v := by
  unfold Field.slot at h
  cases hkind : f.kind with
  | flag =>
      simp only [hkind] at h
      split at h
      · cases h
      · obtain rfl := Option.some.inj h
        exact .flag true
  | counter =>
      simp only [hkind] at h
      split at h
      · cases h
      · obtain rfl := Option.some.inj h
        exact .counter _
  | valued type =>
      simp only [hkind] at h
      obtain ⟨o, -, h⟩ := Option.bind_eq_some_iff.mp h
      obtain ⟨raw, -, h⟩ := Option.bind_eq_some_iff.mp h
      exact .valued (admits_of_toOption h)
  | positional type => simp [hkind] at h
  | positionalList => simp [hkind] at h

namespace Line

variable {s : Schema} {line : Line} {f : Field}

theorem admits_given {v : Value} (h : line.given s f = some v) : f.kind.Admits v := by
  unfold given at h
  cases hkind : f.kind with
  | positional type =>
      simp only [hkind] at h
      obtain ⟨token, -, h⟩ := Option.bind_eq_some_iff.mp h
      exact .positional (admits_of_toOption h)
  | positionalList =>
      simp only [hkind] at h
      split at h
      · cases h
      · obtain rfl := Option.some.inj h
        exact .positionalList _
  | _ =>
      simp only [hkind] at h
      rw [← hkind]
      exact Field.admits_slot h

/-- A line that fails no check gives a value exactly to the fields that it supplies. -/
theorem Valid.given_isSome_iff (h : line.Valid s) (hf : f ∈ s.fields)
    (hfits : ∀ rank e, ¬line.Misfit s rank e) :
    (line.given s f).isSome = true ↔ line.Supplies s f := by
  cases hkind : f.kind with
  | positional type =>
      cases hps : line.positionals with
      | nil => simp [given, Supplies, hkind, hps]
      | cons token rest =>
          cases hv : type.convert token with
          | error reason =>
              have hfirst : line.positionals.head? = some token := by rw [hps]; rfl
              exact absurd (.firstInvalid hf hkind hfirst hv) (hfits 0 _)
          | ok v => simp [given, Supplies, hkind, hps, hv, Except.toOption]
  | positionalList =>
      by_cases hrest : line.remaining s = []
      · simp [given, Supplies, hkind, hrest]
      · simp [given, Supplies, hkind, hrest]
  | _ =>
      have hoption : f.kind.isPositional = false := by rw [hkind]; rfl
      have hslot := h.slot_eq_none_iff hf hoption
      have hgiven : line.given s f = f.slot line.occurrences := by simp [given, hkind]
      rw [hgiven, Option.isSome_iff_ne_none, ne_eq, hslot]
      simp [Supplies, hkind]

/-- A line that fails no check supplies every required field that takes a token. -/
theorem supplies_of_required (hf : f ∈ s.fields) (hfits : ∀ rank e, ¬line.Misfit s rank e)
    (hrequired : f.required = true) (hkind : f.kind.isSwitch = false) :
    line.Supplies s f := by
  cases hk : f.kind with
  | positional type =>
      by_contra h
      have hnone : line.positionals = [] := by simpa [Supplies, hk] using h
      exact hfits 1 _ (.firstMissing hf hk hrequired hnone)
  | positionalList =>
      by_contra h
      have hnone : line.remaining s = [] := by simpa [Supplies, hk] using h
      exact hfits 2 _ (.restMissing hf hk hrequired hnone)
  | valued type =>
      by_contra h
      have hunused : f.uses line.occurrences = [] := by simpa [Supplies, hk] using h
      have hunmet := Field.isUnmet_iff.mpr ⟨hrequired, ⟨type, hk⟩, hunused⟩
      have hsome : (s.fields.find? fun g => g.isUnmet line.occurrences).isSome = true :=
        List.find?_isSome.mpr ⟨f, hf, hunmet⟩
      obtain ⟨g, hg⟩ := Option.isSome_iff_exists.mp hsome
      obtain ⟨hmissing, earlier, later, hfields, hfirst⟩ := find?_isUnmet_eq_some_iff.mp hg
      exact hfits 4 _ (.optionMissing hfields hfirst hmissing)
  | flag => simp [hk, FieldKind.isSwitch] at hkind
  | counter => simp [hk, FieldKind.isSwitch] at hkind

/-- An entry of what a line binds is found by the name of its field. -/
theorem bindings_binding? (s : Schema) (line : Line) (name : String) :
    (line.bindings s).binding? name =
      (s.field? name).map fun f => Schema.settle f (line.given s f) := by
  rw [Bindings.binding?, bindings, List.find?_map]
  rfl

theorem bindings_get? (hf : f ∈ s.fields) :
    (line.bindings s).get? f.name = some (Schema.settle f (line.given s f)).value := by
  rw [Bindings.get?, bindings_binding?, s.field?_eq_some_iff.mpr ⟨hf, rfl⟩]
  rfl

end Line

/-! ## What options preserve -/

namespace Scan

variable {s : Schema} {st st' : State} {P : State → Prop}

theorem lt_size_of_entry {i : ℕ} {f : Field} (h : s.fields[i]? = some f) : i < s.size :=
  (List.getElem?_eq_some_iff.mp h).1

theorem exists_bind_of_supply {i : ℕ} {type : ValueType} {spelling raw : String}
    (h : supply st i type spelling raw = .ok st') :
    ∃ v, st' = { st.bind i v with mode := .options } := by
  obtain ⟨v, -, hv⟩ := ok_of_bind h
  exact ⟨v, (Except.ok.inj hv).symm⟩

/-- The three changes that options make to a state preserve a property. -/
structure KeptByOptions (s : Schema) (P : State → Prop) : Prop where
  switch : ∀ {st} i kind, P st → P (switch st i kind)
  wait : ∀ {st i} type spelling, i < s.size → P st → P { st with mode := .value i type spelling }
  supply : ∀ {st} i v, P st → P { st.bind i v with mode := .options }

namespace KeptByOptions

theorem longOption {body : List Char} (hP : KeptByOptions s P) (hst : P st)
    (h : Scan.longOption s st body = .ok st') : P st' := by
  unfold Scan.longOption at h
  simp only at h
  split at h
  · cases h
  · rename_i i f hresolve
    have hi := lt_size_of_entry (s.resolveLong_eq_some_iff.mp hresolve).1
    split at h
    · obtain rfl := Except.ok.inj h
      exact hP.switch i _ hst
    · obtain rfl := Except.ok.inj h
      exact hP.switch i _ hst
    · cases h
    · cases h
    · obtain rfl := Except.ok.inj h
      exact hP.wait _ _ hi hst
    · obtain ⟨v, rfl⟩ := exists_bind_of_supply h
      exact hP.supply i v hst
    · cases h
    · cases h

theorem shortCluster {cs : List Char} (hP : KeptByOptions s P) (hst : P st)
    (h : Scan.shortCluster s st cs = .ok st') : P st' := by
  induction cs generalizing st with
  | nil =>
      obtain rfl := Except.ok.inj h
      exact hst
  | cons c cs ih =>
      rw [Scan.shortCluster] at h
      split at h
      · cases h
      · rename_i i f hresolve
        have hi := lt_size_of_entry (s.resolveShort_eq_some_iff.mp hresolve).1
        split at h
        · exact ih (hP.switch i _ hst) h
        · exact ih (hP.switch i _ hst) h
        · split at h
          · obtain rfl := Except.ok.inj h
            exact hP.wait _ _ hi hst
          · obtain ⟨v, rfl⟩ := exists_bind_of_supply h
            exact hP.supply i v hst
        · cases h
        · cases h

/-- Apart from options there are positional tokens and the terminator. -/
theorem step {token : String} (hP : KeptByOptions s P) (hpush : ∀ {st}, P st → P (st.push token))
    (hend : token = "--" → P { st with mode := .positionals }) (hst : P st)
    (h : Scan.step s st token = .ok st') : P st' := by
  unfold Scan.step at h
  split at h
  · obtain rfl := Except.ok.inj h
    exact hpush hst
  · split at h
    · obtain ⟨v, rfl⟩ := exists_bind_of_supply h
      exact hP.supply _ v hst
    · cases h
  · unfold openToken at h
    split at h
    · rename_i hdashes
      obtain rfl := Except.ok.inj h
      exact hend (String.toList_inj.mp hdashes)
    · exact hP.longOption hst h
    · exact hP.shortCluster hst h
    · obtain rfl := Except.ok.inj h
      exact hpush hst

end KeptByOptions

/-! ## Slots in range -/

/-- The state has one slot for each field and waits for none but these. -/
structure State.InRange (s : Schema) (st : State) : Prop where
  slots : st.slots.length = s.size
  waiting : ∀ i type spelling, st.mode = .value i type spelling → i < s.size

theorem State.InRange.start (s : Schema) : (State.start s.size).InRange s := by
  refine ⟨by simp [State.start], ?_⟩
  intro i type spelling h
  cases h

theorem State.InRange.bind (h : st.InRange s) (i : ℕ) (v : Value) : (st.bind i v).InRange s :=
  ⟨by simpa [State.bind] using h.slots, h.waiting⟩

theorem keptByOptions_inRange (s : Schema) : KeptByOptions s (State.InRange s) where
  switch := by
    intro st i kind h
    cases kind <;> exact h.bind i _
  wait := by
    intro st i type spelling hi h
    refine ⟨h.slots, ?_⟩
    intro j type' spelling' hmode
    obtain ⟨rfl, -, -⟩ := Mode.value.inj hmode
    exact hi
  supply := fun i v h => ⟨(h.bind i v).slots, nofun⟩

theorem State.InRange.step {token : String} (h : st.InRange s)
    (hst : step s st token = .ok st') : st'.InRange s :=
  (keptByOptions_inRange s).step (fun h => ⟨h.slots, h.waiting⟩)
    (fun _ => ⟨h.slots, nofun⟩) h hst

theorem State.InRange.run {tokens : List String} (h : st.InRange s)
    (hst : run s st tokens = .ok st') : st'.InRange s :=
  invariant_of_foldlM (fun _ _ _ => State.InRange.step) h hst

end Scan

/-! ## The result of a parse -/

/-- What an entry of a result is to its field. -/
structure Field.BoundBy (s : Schema) (line : Line) (b : Bindings) (f : Field)
    (entry : Binding) : Prop where
  name : entry.name = f.name
  typed : f.kind.Admits entry.value
  explicit_iff : entry.explicit = true ↔ line.Supplies s f
  supplied : entry.explicit = true → line.given s f = some entry.value
  defaulted : entry.explicit = false → entry.value = f.defaultValue
  required : f.required = true → f.kind.isSwitch = false → entry.explicit = true
  found : b.get? f.name = some entry.value

theorem boundBy_settle {s : Schema} {line : Line} {f : Field} (h : line.Valid s)
    (hf : f ∈ s.fields) (hfits : ∀ rank e, ¬line.Misfit s rank e) :
    f.BoundBy s line (line.bindings s) (Schema.settle f (line.given s f)) where
  name := rfl
  typed := by
    cases hgiven : line.given s f with
    | none => exact (s.wellFormed hf).admits_defaultValue
    | some v => exact Line.admits_given hgiven
  explicit_iff := h.given_isSome_iff hf hfits
  supplied := by
    intro hexplicit
    obtain ⟨v, hv⟩ := Option.isSome_iff_exists.mp hexplicit
    simp [Schema.settle, hv]
  defaulted := by
    intro hexplicit
    have hnone : line.given s f = none := by simpa [Schema.settle] using hexplicit
    simp [Schema.settle, hnone]
  required := by
    intro hrequired hkind
    exact (h.given_isSome_iff hf hfits).mpr
      (Line.supplies_of_required hf hfits hrequired hkind)
  found := Line.bindings_get? hf

/-- A parse that succeeds has read a valid line that fails no check. -/
theorem exists_line_of_parse {s : Schema} {tokens : List String} {b : Bindings}
    (h : s.parse tokens = .ok b) :
    ∃ line : Line, line.Valid s ∧ line.tokens = tokens ∧
      (∀ rank e, ¬line.Misfit s rank e) ∧ b = line.bindings s := by
  rw [s.parse_eq_bind] at h
  cases hscan : scan s tokens with
  | error e =>
      rw [hscan] at h
      cases h
  | ok st =>
      obtain ⟨line, hline, rfl, rfl⟩ := exists_line_of_scan hscan
      rw [hscan, Except.bind] at h
      rcases Schema.bind_line hline with ⟨rank, e, -, hbind⟩ | ⟨hfits, hbind⟩
      · rw [hbind] at h
        cases h
      · rw [hbind] at h
        exact ⟨line, hline, rfl, hfits, (Except.ok.inj h).symm⟩

theorem positionalEntries_getElem? {s : Schema} {i : ℕ} {f : Field}
    (h : (i, f) ∈ s.positionalEntries) : s.fields[i]? = some f := by
  rw [s.positionalEntries_eq, List.mem_append, Option.mem_toList, Option.mem_toList] at h
  rcases h with h | h
  · exact (s.first?_eq_some_iff.mp h).1
  · exact (s.list?_eq_some_iff.mp h).1

/-- A parse that succeeds is total and well typed.  The result has one entry for each
field, in declaration order; an entry holds a value of the field's kind, which is the
default unless the line that was read supplies another; and every position that a lookup
or the machine holds is one of a field, so no slot is missed. -/
theorem parse_total {s : Schema} {tokens : List String} {b : Bindings}
    (h : s.parse tokens = .ok b) :
    ∃ line : Line, line.Valid s ∧ line.tokens = tokens ∧
      b.entries.map Binding.name = s.fields.map Field.name ∧
      (∀ (i : ℕ) (f : Field), s.fields[i]? = some f →
        ∃ entry, b.entries[i]? = some entry ∧ f.BoundBy s line b entry) ∧
      (∀ front st, front <+: tokens → run s (.start s.size) front = .ok st → st.InRange s) ∧
      (∃ st slots, scan s tokens = .ok st ∧
        s.dealAll st.positionals st.slots = .ok slots ∧ slots.length = s.size) ∧
      ∀ (i : ℕ) (f : Field), (∃ c, s.resolveShort c = some (i, f)) ∨ (∃ l, s.resolveLong l = some (i, f)) ∨
        (i, f) ∈ s.positionalEntries → s.fields[i]? = some f := by
  obtain ⟨line, hline, rfl, hfits, rfl⟩ := exists_line_of_parse h
  refine ⟨line, hline, rfl, ?_, ?_, ?_, ?_, ?_⟩
  · simp [Line.bindings, Schema.settle]
  · intro i f hi
    have hf := List.mem_of_getElem? hi
    refine ⟨Schema.settle f (line.given s f), ?_, boundBy_settle hline hf hfits⟩
    simp [Line.bindings, hi]
  · intro front st _ hrun
    exact (State.InRange.start s).run hrun
  · rcases s.dealAll_line line with ⟨rank, e, hfirst, -⟩ | ⟨-, hdeal⟩
    · exact absurd hfirst.misfit (hfits rank e)
    · exact ⟨line.outcome s, _, scan_line hline, hdeal, by simp [Schema.size]⟩
  · rintro i f (⟨c, hc⟩ | ⟨l, hl⟩ | hentry)
    · exact (s.resolveShort_eq_some_iff.mp hc).1
    · exact (s.resolveLong_eq_some_iff.mp hl).1
    · exact positionalEntries_getElem? hentry

/-- A command with a field of each kind. -/
def copyCommand : Schema where
  name := "copy"
  description := none
  fields := [.flag (some 'f') (some "force"), .counter (some 'v') none,
    (Field.valued (some 'j') (some "jobs") .int).withDefault (.int 2),
    .positional "source" .string, .positionalList "targets"]
  name_not_blank := by decide
  consistent := by decide

/-- A command that needs two options. -/
def linkCommand : Schema where
  name := "link"
  description := none
  fields := [.valued (some 'f') (some "from") .string, .valued (some 't') none .int,
    .positionalList "names"]
  name_not_blank := by decide
  consistent := by decide

theorem parse_total_copy :
    copyCommand.parse ["-vv", "a", "--force", "b"] = .ok ⟨"copy",
      [⟨"force", .bool true, true⟩, ⟨"v", .count 2, true⟩, ⟨"jobs", .int 2, false⟩,
        ⟨"source", .str "a", true⟩, ⟨"targets", .list ["b"], true⟩]⟩ ∧
    ∃ line : Line, line.Valid copyCommand ∧ line.tokens = ["-vv", "a", "--force", "b"] := by
  have h : copyCommand.parse ["-vv", "a", "--force", "b"] = .ok ⟨"copy",
      [⟨"force", .bool true, true⟩, ⟨"v", .count 2, true⟩, ⟨"jobs", .int 2, false⟩,
        ⟨"source", .str "a", true⟩, ⟨"targets", .list ["b"], true⟩]⟩ := by decide
  obtain ⟨line, hline, htokens, -⟩ := parse_total h
  exact ⟨h, line, hline, htokens⟩

/-! ## The values of a result -/

/-- A member of a rendered result. -/
def Field.shown (f : Field) (v : Value) : String :=
  " " ++ f.name ++ "=" ++ v.render

/-- The result assigns values to the fields of a schema. -/
structure Bindings.Assigns (b : Bindings) (s : Schema) (value : Field → Value) : Prop where
  schema : b.schema = s.name
  entries : b.entries.map (fun e => (e.name, e.value)) = s.fields.map fun f => (f.name, value f)
  found : ∀ f ∈ s.fields, b.get? f.name = some (value f)
  typed : ∀ f ∈ s.fields, f.kind.Admits (value f)

theorem exists_assigns_of_parse {s : Schema} {tokens : List String} {b : Bindings}
    (h : s.parse tokens = .ok b) : ∃ value, b.Assigns s value := by
  obtain ⟨line, hline, -, hfits, rfl⟩ := exists_line_of_parse h
  refine ⟨fun f => (Schema.settle f (line.given s f)).value, rfl, ?_, ?_, ?_⟩
  · rw [Line.bindings, List.map_map]
    rfl
  · intro f hf
    exact Line.bindings_get? hf
  · intro f hf
    exact (boundBy_settle hline hf hfits).typed

namespace Bindings.Assigns

variable {s : Schema} {b b' : Bindings} {value value' : Field → Value}

/-- Results for one schema are equal if all their values are. -/
theorem beq_eq_all (h : b.Assigns s value) (h' : b'.Assigns s value') :
    (b == b') = s.fields.all fun f => value f == value' f := by
  have hbeq : (b == b') = (b.schema == b'.schema &&
      b.entries.map (fun e => (e.name, e.value)) ==
        b'.entries.map fun e => (e.name, e.value)) := rfl
  rw [hbeq, h.schema, h'.schema, h.entries, h'.entries, beq_self_eq_true, Bool.true_and,
    Bool.eq_iff_iff, beq_iff_eq, List.map_inj_left, List.all_eq_true]
  simp

/-- What is made of the entries is made of the fields and their values. -/
theorem map_entries {α : Type} (h : b.Assigns s value) (f : String → Value → α) :
    (b.entries.map fun e => f e.name e.value) = s.fields.map fun g => f g.name (value g) := by
  have hentries := congrArg (List.map fun entry : String × Value => f entry.1 entry.2) h.entries
  rw [List.map_map, List.map_map] at hentries
  exact hentries

theorem render_eq (h : b.Assigns s value) (name : String) :
    ({ b with schema := name } : Bindings).render =
      "<" ++ name ++ String.join (s.fields.map fun f => f.shown (value f)) ++ ">" := by
  have hshown := h.map_entries fun name v => " " ++ name ++ "=" ++ v.render
  rw [render, hshown]
  rfl

end Bindings.Assigns

end CommandSchema
