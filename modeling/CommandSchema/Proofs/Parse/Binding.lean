import CommandSchema.Parse
import CommandSchema.Proofs.Parse.Acceptance
import Mathlib.Data.List.Find

/-!
# Binding a line

What the fields of a schema get from a valid line, and what can keep the line from
fitting the schema after it has been read.  The checks on a line have an order, and
the first that fails decides the error.
-/

namespace CommandSchema

open Scan

/-! ## Shares -/

/-- Whether a schema has a field for the first positional token. -/
def Schema.takesFirst (s : Schema) : Bool :=
  s.fields.any fun f => f.kind matches .positional _

/-- A required option with a value that no use of its forms supplies. -/
structure Field.Unmet (f : Field) (occs : List Occurrence) : Prop where
  required : f.required = true
  valued : ∃ type, f.kind = .valued type
  unused : f.uses occs = []

namespace Line

/-- The positional tokens behind the one that a field takes for itself. -/
def remaining (s : Schema) (line : Line) : List String :=
  if s.takesFirst then line.positionals.tail else line.positionals

/-- Whether a line supplies a field. -/
def Supplies (s : Schema) (line : Line) (f : Field) : Prop :=
  match f.kind with
  | .positional _ => line.positionals ≠ []
  | .positionalList => line.remaining s ≠ []
  | _ => f.uses line.occurrences ≠ []

/-- The value that a line gives to a field. -/
def given (s : Schema) (line : Line) (f : Field) : Option Value :=
  match f.kind with
  | .positional type => line.positionals.head?.bind fun token => (type.convert token).toOption
  | .positionalList =>
    if line.remaining s = [] then none else some (.list (line.remaining s))
  | _ => f.slot line.occurrences

/-- The result of a line: each field with what the line gives it, or its default. -/
def bindings (s : Schema) (line : Line) : Bindings :=
  ⟨s.name, s.fields.map fun f => Schema.settle f (line.given s f)⟩

/-- A check that a line fails, by its place in the order of the checks, and the
error that it stands for. -/
inductive Misfit (s : Schema) (line : Line) : ℕ → ParseError → Prop
  /-- The first positional token does not convert to the type of its field. -/
  | firstInvalid {f : Field} {type : ValueType} {token : String} {reason : Text.IntegerFault}
      (mem : f ∈ s.fields) (kind : f.kind = .positional type)
      (first : line.positionals.head? = some token) (fault : type.convert token = .error reason) :
      Misfit s line 0 (.invalidValue f.name token reason)
  /-- There is no positional token, and a field needs the first. -/
  | firstMissing {f : Field} {type : ValueType} (mem : f ∈ s.fields)
      (kind : f.kind = .positional type) (required : f.required = true)
      (none : line.positionals = []) : Misfit s line 1 (.missingPositional f.name)
  /-- No positional token remains for the list that needs one. -/
  | restMissing {f : Field} (mem : f ∈ s.fields) (kind : f.kind = .positionalList)
      (required : f.required = true) (none : line.remaining s = []) :
      Misfit s line 2 (.missingPositional f.name)
  /-- A positional token remains, and there is no list to take it. -/
  | leftOver {token : String} {more : List String}
      (listless : ∀ f ∈ s.fields, f.kind ≠ .positionalList)
      (rest : line.remaining s = token :: more) : Misfit s line 3 (.unexpectedPositional token)
  /-- Of the required options that are not supplied, this is declared first. -/
  | optionMissing {earlier later : List Field} {f : Field}
      (fields : s.fields = earlier ++ f :: later)
      (first : ∀ g ∈ earlier, ¬g.Unmet line.occurrences) (unmet : f.Unmet line.occurrences) :
      Misfit s line 4 (.missingRequiredOption f.displayName)

/-- A line passes the checks below a rank. -/
def Passes (s : Schema) (line : Line) (rank : ℕ) : Prop :=
  ∀ lower < rank, ∀ e, ¬line.Misfit s lower e

/-- The first check that a line fails. -/
structure FirstMisfit (s : Schema) (line : Line) (rank : ℕ) (e : ParseError) : Prop where
  misfit : line.Misfit s rank e
  passes : line.Passes s rank

theorem Passes.succ {s : Schema} {line : Line} {rank : ℕ} (h : line.Passes s rank)
    (hrank : ∀ e, ¬line.Misfit s rank e) : line.Passes s (rank + 1) := by
  intro lower hlower
  rcases Nat.lt_succ_iff_lt_or_eq.mp hlower with hlower | rfl
  · exact h lower hlower
  · exact hrank

theorem takesFirst_eq_true_iff {s : Schema} :
    s.takesFirst = true ↔ ∃ f ∈ s.fields, ∃ type, f.kind = .positional type := by
  unfold Schema.takesFirst
  rw [List.any_eq_true]
  exact exists_congr fun f => and_congr_right fun _ => FieldKind.matches_positional_iff

end Line

/-! ## Supplied options -/

/-- Whether a required option with a value is not supplied. -/
def Field.isUnmet (f : Field) (occs : List Occurrence) : Bool :=
  f.required && f.kind.takesValue && (f.uses occs).isEmpty

theorem Field.isUnmet_iff {f : Field} {occs : List Occurrence} :
    f.isUnmet occs = true ↔ f.Unmet occs := by
  simp only [Field.isUnmet, Bool.and_eq_true, List.isEmpty_iff]
  constructor
  · rintro ⟨⟨required, takes⟩, unused⟩
    refine ⟨required, ?_, unused⟩
    cases kind : f.kind <;> simp [kind, FieldKind.takesValue] at takes ⊢
  · rintro ⟨required, ⟨type, kind⟩, unused⟩
    exact ⟨⟨required, by rw [kind]; rfl⟩, unused⟩

theorem find?_isUnmet_eq_some_iff {fields : List Field} {occs : List Occurrence} {f : Field} :
    (fields.find? fun g => g.isUnmet occs) = some f ↔
      f.Unmet occs ∧ ∃ earlier later, fields = earlier ++ f :: later ∧
        ∀ g ∈ earlier, ¬g.Unmet occs := by
  simp only [List.find?_eq_some_iff_append, Bool.not_eq_true', Bool.eq_false_iff, ne_eq,
    Field.isUnmet_iff]

/-- A use of an option fits the field that it names. -/
theorem Item.Valid.occurrence {s : Schema} {item : Item} {o : Occurrence} (h : item.Valid s)
    (ho : o ∈ item.occurrences) :
    ∃ f ∈ s.fields, f.answersTo o.form = true ∧
      ∀ type, f.kind = .valued type → ∃ raw v, o.value = some raw ∧ type.convert raw = .ok v := by
  have hswitch : ∀ {c : Char} (cs : List Char), (∀ c ∈ cs, s.IsSwitch c) → c ∈ cs →
      ∃ f ∈ s.fields, f.answersTo (.short c) = true ∧ ∀ type, f.kind ≠ .valued type := by
    intro c cs hcs hc
    obtain ⟨f, hf, hform, hkind⟩ := hcs c hc
    refine ⟨f, hf, Field.answersTo_short hform, ?_⟩
    intro type htype
    simp [htype, FieldKind.isSwitch] at hkind
  cases h with
  | positional plain => simp [Item.occurrences] at ho
  | @longSwitch name f mem form kind =>
      obtain rfl : o = ⟨.long name, none⟩ := by simpa [Item.occurrences] using ho
      refine ⟨f, mem, Field.answersTo_long form, ?_⟩
      intro type htype
      simp [htype, FieldKind.isSwitch] at kind
  | @longValue name given f type mem form kind fits =>
      obtain rfl : o = ⟨.long name, some given.value⟩ := by
        simpa [Item.occurrences] using ho
      obtain ⟨v, hv⟩ := fits.converts
      refine ⟨f, mem, Field.answersTo_long form, ?_⟩
      intro type' htype
      obtain rfl : type = type' := by simpa [kind] using htype
      exact ⟨given.value, v, rfl, hv⟩
  | @cluster cs nonempty switches =>
      obtain ⟨c, hc, rfl⟩ : ∃ c ∈ cs, ⟨.short c, none⟩ = o := by
        simpa [Item.occurrences] using ho
      obtain ⟨f, hf, hform, hkind⟩ := hswitch cs switches hc
      exact ⟨f, hf, hform, fun type htype => absurd htype (hkind type)⟩
  | @clusterValue cs c given f type switches mem form kind fits nonempty =>
      rw [Item.occurrences, List.mem_append] at ho
      rcases ho with ho | ho
      · obtain ⟨c, hc, rfl⟩ : ∃ c ∈ cs, ⟨.short c, none⟩ = o := by simpa using ho
        obtain ⟨f, hf, hform, hkind⟩ := hswitch cs switches hc
        exact ⟨f, hf, hform, fun type htype => absurd htype (hkind type)⟩
      · obtain rfl : o = ⟨.short c, some given.value⟩ := by simpa using ho
        obtain ⟨v, hv⟩ := fits.converts
        refine ⟨f, mem, Field.answersTo_short form, ?_⟩
        intro type' htype
        obtain rfl : type = type' := by simpa [kind] using htype
        exact ⟨given.value, v, rfl, hv⟩

/-- In a valid line every use of a field with a value has one that converts. -/
theorem Line.Valid.use_converts {s : Schema} {line : Line} {f : Field} {o : Occurrence}
    {type : ValueType} (h : line.Valid s) (hf : f ∈ s.fields) (hkind : f.kind = .valued type)
    (ho : o ∈ f.uses line.occurrences) :
    ∃ raw v, o.value = some raw ∧ type.convert raw = .ok v := by
  obtain ⟨hline, hform⟩ := List.mem_filter.mp ho
  obtain ⟨item, hitem, hoccurs⟩ := List.mem_flatMap.mp hline
  obtain ⟨g, hg, hform', hconverts⟩ := (h item hitem).occurrence hoccurs
  obtain rfl := eq_of_answersTo s hf hg hform hform'
  exact hconverts type hkind

/-- The slot of an option is filled exactly if the option is used. -/
theorem Line.Valid.slot_eq_none_iff {s : Schema} {line : Line} {f : Field} (h : line.Valid s)
    (hf : f ∈ s.fields) (hoption : f.kind.isPositional = false) :
    f.slot line.occurrences = none ↔ f.uses line.occurrences = [] := by
  cases hkind : f.kind with
  | flag => simp [Field.slot, hkind]
  | counter => simp [Field.slot, hkind]
  | valued type =>
      cases hlast : (f.uses line.occurrences).getLast? with
      | none => simp [Field.slot, hkind, List.getLast?_eq_none_iff.mp hlast]
      | some o =>
          have ho := List.mem_of_getLast? hlast
          obtain ⟨raw, v, hraw, hv⟩ := h.use_converts hf hkind ho
          have hne : f.uses line.occurrences ≠ [] := List.ne_nil_of_mem ho
          simp [Field.slot, hkind, hlast, hraw, hv, hne, Except.toOption]
  | positional type => simp [hkind, FieldKind.isPositional] at hoption
  | positionalList => simp [hkind, FieldKind.isPositional] at hoption

/-! ## Dealing out positional tokens -/

namespace Schema

/-- The shares of all fields but the list, which is dealt out last. -/
def sharesBeforeList (s : Schema) (line : Line) : List (Option Value) :=
  s.fields.map fun f => if f.kind = .positionalList then none else line.given s f

theorem sharesBeforeList_eq (s : Schema) (line : Line)
    (h : ∀ f ∈ s.fields, ∀ type, f.kind ≠ .positional type) :
    s.fields.map (fun f => f.slot line.occurrences) = s.sharesBeforeList line := by
  refine List.map_congr_left fun f hf => ?_
  cases hkind : f.kind with
  | positional type => exact absurd hkind (h f hf type)
  | _ => simp [Field.slot, Line.given, hkind]

/-- The share of the first field joins the shares of the options. -/
theorem set_first {s : Schema} {line : Line} {i : ℕ} {f : Field} {type : ValueType} {v : Value}
    (hi : s.fields[i]? = some f) (hkind : f.kind = .positional type)
    (hv : line.given s f = some v) :
    (s.fields.map fun f => f.slot line.occurrences).set i (some v) =
      s.sharesBeforeList line := by
  refine s.map_set hi (by simpa [hkind] using hv) fun g hg hne => ?_
  cases hkind' : g.kind with
  | positional type' =>
      exact absurd (s.eq_of_positional hg (List.mem_of_getElem? hi) hkind' hkind) hne
  | _ => simp [Field.slot, Line.given, hkind']

theorem passes_zero (s : Schema) (line : Line) : line.Passes s 0 :=
  fun lower hlower => absurd hlower (Nat.not_lt_zero lower)

/-- Without a first field its checks pass and the tokens stay as they are. -/
theorem passes_first_none {s : Schema} (line : Line)
    (h : ∀ f ∈ s.fields, ∀ type, f.kind ≠ .positional type) :
    line.Passes s 2 ∧ line.remaining s = line.positionals := by
  have htakes : s.takesFirst = false := by
    by_contra htrue
    obtain ⟨f, hf, type, hkind⟩ := Line.takesFirst_eq_true_iff.mp (by simpa using htrue)
    exact h f hf type hkind
  refine ⟨((passes_zero s line).succ ?_).succ ?_, by simp [Line.remaining, htakes]⟩
  · rintro e ⟨mem, kind, -, -⟩
    exact h _ mem _ kind
  · intro e he
    cases he with
    | firstMissing mem kind required none => exact h _ mem _ kind

section First

variable {s : Schema} {line : Line} {i : ℕ} {f : Field} {type : ValueType}

/-- Without a token for it the first field is missing if it is required. -/
theorem deal_first_nil (hi : s.fields[i]? = some f) (hkind : f.kind = .positional type)
    (hps : line.positionals = []) :
    (∃ rank e, line.FirstMisfit s rank e ∧
      [(i, f)].foldlM deal
        ⟨[], s.fields.map fun f => f.slot line.occurrences⟩ = .error e) ∨
    line.Passes s 2 ∧
      [(i, f)].foldlM deal
        ⟨[], s.fields.map fun f => f.slot line.occurrences⟩ =
          .ok ⟨line.remaining s, s.sharesBeforeList line⟩ := by
  have hf := List.mem_of_getElem? hi
  have hvalid : ∀ e, ¬line.Misfit s 0 e := by
    rintro e ⟨-, -, first, -⟩
    simp [hps] at first
  have hpasses := (passes_zero s line).succ hvalid
  cases hrequired : f.required with
  | true =>
      refine Or.inl ⟨1, _, ⟨.firstMissing hf hkind hrequired hps, hpasses⟩, ?_⟩
      simp [deal, hkind, hrequired]
  | false =>
      have hremaining : line.remaining s = [] := by simp [Line.remaining, hps]
      have hshares : s.fields.map (fun f => f.slot line.occurrences) =
          s.sharesBeforeList line := by
        refine List.map_congr_left fun g hg => ?_
        cases hkind' : g.kind <;> simp [Field.slot, Line.given, hkind', hps]
      refine Or.inr ⟨hpasses.succ ?_, ?_⟩
      · intro e he
        cases he with
        | firstMissing mem kind required none =>
            rw [s.eq_of_positional mem hf kind hkind, hrequired] at required
            cases required
      · simp [deal, hkind, hrequired, hremaining, hshares]

/-- The first field takes the first token, which has to convert. -/
theorem deal_first_cons {token : String} {rest : List String}
    (hi : s.fields[i]? = some f) (hkind : f.kind = .positional type)
    (hps : line.positionals = token :: rest) :
    (∃ rank e, line.FirstMisfit s rank e ∧
      [(i, f)].foldlM deal
        ⟨token :: rest, s.fields.map fun f => f.slot line.occurrences⟩ = .error e) ∨
    line.Passes s 2 ∧
      [(i, f)].foldlM deal
        ⟨token :: rest, s.fields.map fun f => f.slot line.occurrences⟩ =
          .ok ⟨line.remaining s, s.sharesBeforeList line⟩ := by
  have hf := List.mem_of_getElem? hi
  have htakes : s.takesFirst = true := Line.takesFirst_eq_true_iff.mpr ⟨f, hf, type, hkind⟩
  have hremaining : line.remaining s = rest := by simp [Line.remaining, htakes, hps]
  cases hv : type.convert token with
  | error reason =>
      have hfirst : line.positionals.head? = some token := by rw [hps]; rfl
      refine Or.inl ⟨0, _, ⟨.firstInvalid hf hkind hfirst hv, passes_zero s line⟩, ?_⟩
      simp [deal, hkind, convertFor, hv]
  | ok v =>
      have hgiven : line.given s f = some v := by
        simp [Line.given, hkind, hps, hv, Except.toOption]
      refine Or.inr ⟨((passes_zero s line).succ ?_).succ ?_, ?_⟩
      · rintro e ⟨mem, kind, first, fault⟩
        obtain rfl := s.eq_of_positional mem hf kind hkind
        obtain rfl : type = _ := by simpa [hkind] using kind
        obtain rfl : token = _ := by simpa [hps] using first
        rw [hv] at fault
        cases fault
      · intro e he
        cases he with
        | firstMissing mem kind required none => simp [hps] at none
      · simp [deal, hkind, convertFor, hv, hremaining, ← set_first hi hkind hgiven]

end First

theorem deal_first (s : Schema) (line : Line) :
    (∃ rank e, line.FirstMisfit s rank e ∧
      s.first?.toList.foldlM deal
        ⟨line.positionals, s.fields.map fun f => f.slot line.occurrences⟩ = .error e) ∨
    line.Passes s 2 ∧
      s.first?.toList.foldlM deal
        ⟨line.positionals, s.fields.map fun f => f.slot line.occurrences⟩ =
          .ok ⟨line.remaining s, s.sharesBeforeList line⟩ := by
  cases hfind : s.first? with
  | none =>
      have hnone := s.first?_eq_none_iff.mp hfind
      obtain ⟨htwo, hremaining⟩ := passes_first_none line hnone
      refine Or.inr ⟨htwo, ?_⟩
      rw [s.sharesBeforeList_eq line hnone, hremaining]
      rfl
  | some entry =>
      obtain ⟨i, f⟩ := entry
      obtain ⟨hi, type, hkind⟩ := s.first?_eq_some_iff.mp hfind
      cases hps : line.positionals with
      | nil => exact deal_first_nil hi hkind hps
      | cons token rest => exact deal_first_cons hi hkind hps

/-- The list takes what remains, in place of its empty share. -/
theorem set_list {s : Schema} {line : Line} {i : ℕ} {f : Field} {v : Value}
    (hi : s.fields[i]? = some f) (hkind : f.kind = .positionalList)
    (hv : line.given s f = some v) :
    (s.sharesBeforeList line).set i (some v) = s.fields.map (line.given s) := by
  refine s.map_set hi hv fun g hg hne => ?_
  have hne' : g.kind ≠ .positionalList := by
    intro hkind'
    exact hne (s.eq_of_positionalList hg (List.mem_of_getElem? hi) hkind' hkind)
  rw [if_neg hne']

theorem sharesBeforeList_eq_given {s : Schema} {line : Line}
    (h : ∀ f ∈ s.fields, f.kind = .positionalList → line.remaining s = []) :
    s.sharesBeforeList line = s.fields.map (line.given s) := by
  refine List.map_congr_left fun f hf => ?_
  by_cases hkind : f.kind = .positionalList
  · simp [Line.given, hkind, h f hf hkind]
  · rw [if_neg hkind]

theorem deal_list (s : Schema) (line : Line) (h : line.Passes s 2) :
    (∃ rank e, line.FirstMisfit s rank e ∧
      s.list?.toList.foldlM deal ⟨line.remaining s, s.sharesBeforeList line⟩ = .error e) ∨
    line.Passes s 3 ∧ ∃ tokens,
      s.list?.toList.foldlM deal ⟨line.remaining s, s.sharesBeforeList line⟩ =
        .ok ⟨tokens, s.fields.map (line.given s)⟩ ∧
      ((∀ f ∈ s.fields, f.kind ≠ .positionalList) ∧ tokens = line.remaining s ∨
        (∃ f ∈ s.fields, f.kind = .positionalList) ∧ tokens = []) := by
  cases hfind : s.list? with
  | none =>
      have hnone := s.list?_eq_none_iff.mp hfind
      refine Or.inr ⟨h.succ ?_, line.remaining s, ?_, Or.inl ⟨hnone, rfl⟩⟩
      · intro e he
        cases he with
        | restMissing mem kind required none => exact hnone _ mem kind
      · rw [sharesBeforeList_eq_given fun f hf hkind => absurd hkind (hnone f hf)]
        rfl
  | some entry =>
      obtain ⟨i, f⟩ := entry
      obtain ⟨hi, hkind⟩ := s.list?_eq_some_iff.mp hfind
      have hf := List.mem_of_getElem? hi
      by_cases hrest : line.remaining s = []
      · cases hrequired : f.required with
        | true =>
            refine Or.inl ⟨2, _, ⟨.restMissing hf hkind hrequired hrest, h⟩, ?_⟩
            simp [deal, hkind, hrequired, hrest]
        | false =>
            refine Or.inr ⟨h.succ ?_, [], ?_, Or.inr ⟨⟨f, hf, hkind⟩, rfl⟩⟩
            · intro e he
              cases he with
              | restMissing mem kind required none =>
                  rw [s.eq_of_positionalList mem hf kind hkind, hrequired] at required
                  cases required
            · rw [sharesBeforeList_eq_given fun g hg hkind' => hrest]
              simp [deal, hkind, hrequired, hrest]
      · have hgiven : line.given s f = some (.list (line.remaining s)) := by
          simp [Line.given, hkind, hrest]
        refine Or.inr ⟨h.succ ?_, [], ?_, Or.inr ⟨⟨f, hf, hkind⟩, rfl⟩⟩
        · intro e he
          cases he with
          | restMissing mem kind required none => exact hrest none
        · simp [deal, hkind, hrest, set_list hi hkind hgiven]

/-! ## All checks on a line -/

/-- No positional token may be left. -/
def noneLeft (d : Dealt) : Except ParseError (List (Option Value)) :=
  match d.tokens with
  | token :: _ => .error (.unexpectedPositional token)
  | [] => .ok d.slots

theorem dealAll_eq_bind (s : Schema) (tokens : List String) (slots : List (Option Value)) :
    s.dealAll tokens slots =
      ((s.first?.toList.foldlM deal ⟨tokens, slots⟩).bind
        (s.list?.toList.foldlM deal)).bind noneLeft := by
  rw [dealAll, positionalEntries_eq, List.foldlM_append]
  rfl

theorem dealAll_line (s : Schema) (line : Line) :
    (∃ rank e, line.FirstMisfit s rank e ∧
      s.dealAll line.positionals (s.fields.map fun f => f.slot line.occurrences) = .error e) ∨
    line.Passes s 4 ∧
      s.dealAll line.positionals (s.fields.map fun f => f.slot line.occurrences) =
        .ok (s.fields.map (line.given s)) := by
  rw [dealAll_eq_bind]
  rcases s.deal_first line with ⟨rank, e, hfirst, hdeal⟩ | ⟨htwo, hdeal⟩
  · refine Or.inl ⟨rank, e, hfirst, ?_⟩
    rw [hdeal]
    rfl
  rw [hdeal, Except.bind]
  rcases s.deal_list line htwo with ⟨rank, e, hfirst, hlist⟩ | ⟨hthree, tokens, hlist, hcases⟩
  · refine Or.inl ⟨rank, e, hfirst, ?_⟩
    rw [hlist]
    rfl
  rw [hlist, Except.bind]
  cases tokens with
  | nil =>
      refine Or.inr ⟨hthree.succ ?_, rfl⟩
      intro e he
      cases he with
      | leftOver listless rest =>
          rcases hcases with ⟨-, hnil⟩ | ⟨⟨f, hf, hkind⟩, -⟩
          · rw [rest] at hnil
            cases hnil
          · exact listless f hf hkind
  | cons token more =>
      rcases hcases with ⟨hlistless, hrest⟩ | ⟨-, hnil⟩
      · exact Or.inl ⟨3, _, ⟨.leftOver hlistless hrest.symm, hthree⟩, rfl⟩
      · cases hnil

/-- The option that is reported missing is the first that the line fails to supply. -/
theorem unmet?_given {s : Schema} {line : Line} (h : line.Valid s) :
    s.unmet? (s.fields.map (line.given s)) =
      s.fields.find? fun f => f.isUnmet line.occurrences := by
  unfold unmet? Field.isUnmet
  rw [← List.map_prod_left_eq_zip, List.find?_map, Option.map_map]
  have hid : Prod.fst ∘ (fun f => (f, line.given s f)) = (id : Field → Field) := rfl
  rw [hid, Option.map_id_fun, id]
  refine List.find?_congr fun f hf => ?_
  cases hkind : f.kind with
  | valued type =>
      have hoption : f.kind.isPositional = false := by rw [hkind]; rfl
      have hslot := h.slot_eq_none_iff hf hoption
      have hgiven : line.given s f = f.slot line.occurrences := by simp [Line.given, hkind]
      have hempty : (line.given s f).isNone = (f.uses line.occurrences).isEmpty := by
        rw [hgiven, Bool.eq_iff_iff, Option.isNone_iff_eq_none, List.isEmpty_iff, hslot]
      simp [hempty, hkind]
  | _ => simp [hkind, FieldKind.takesValue]

/-- Once all tokens are dealt out, only a required option can be missing. -/
theorem bind_of_dealAll {s : Schema} {line : Line}
    (hdeal : s.dealAll line.positionals (s.fields.map fun f => f.slot line.occurrences) =
      .ok (s.fields.map (line.given s))) :
    s.bind (line.outcome s) = (s.unmet? (s.fields.map (line.given s))).elim
      (.ok (line.bindings s)) fun f => .error (.missingRequiredOption f.displayName) := by
  have hsettle : (s.fields.zip (s.fields.map (line.given s))).map (fun p => settle p.1 p.2) =
      s.fields.map fun f => settle f (line.given s f) := by
    rw [← List.map_prod_left_eq_zip, List.map_map]
    rfl
  rw [Line.bindings, ← hsettle, bind, Line.outcome, hdeal]
  simp only [Bind.bind, Except.bind]
  cases s.unmet? (s.fields.map (line.given s)) with
  | none => rfl
  | some f => rfl

/-- A valid line is bound, or the first check that it fails decides the error. -/
theorem bind_line {s : Schema} {line : Line} (h : line.Valid s) :
    (∃ rank e, line.FirstMisfit s rank e ∧ s.bind (line.outcome s) = .error e) ∨
      (∀ rank e, ¬line.Misfit s rank e) ∧ s.bind (line.outcome s) = .ok (line.bindings s) := by
  rcases s.dealAll_line line with ⟨rank, e, hfirst, hdeal⟩ | ⟨hfour, hdeal⟩
  · refine Or.inl ⟨rank, e, hfirst, ?_⟩
    rw [bind, Line.outcome, hdeal]
    rfl
  rw [bind_of_dealAll hdeal, unmet?_given h]
  cases hfind : s.fields.find? (fun f => f.isUnmet line.occurrences) with
  | some f =>
      obtain ⟨hunmet, earlier, later, hfields, hfirst⟩ := find?_isUnmet_eq_some_iff.mp hfind
      exact Or.inl ⟨4, _, ⟨.optionMissing hfields hfirst hunmet, hfour⟩, rfl⟩
  | none =>
      refine Or.inr ⟨?_, rfl⟩
      have hfive : line.Passes s 5 := by
        refine hfour.succ ?_
        intro e he
        cases he with
        | @optionMissing earlier later f fields first unmet =>
            have hf : f ∈ s.fields := by rw [fields]; simp
            exact List.find?_eq_none.mp hfind f hf (Field.isUnmet_iff.mpr unmet)
      intro rank e he
      by_cases hrank : rank < 5
      · exact hfive rank hrank e he
      · cases he <;> omega

end Schema

end CommandSchema
