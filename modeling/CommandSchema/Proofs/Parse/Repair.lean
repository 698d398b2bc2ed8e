import CommandSchema.Proofs.Definition.Spelling
import CommandSchema.Proofs.Parse.Terminator

/-!
# Supplying what is missing

The error about a required option names the option as it may be typed.  Typed in front of
the tokens, with a value that converts, it is one more item of the same line.  Nothing else
on the line changes, so the next error, if there is one, is about an option declared later;
and there are only so many options to supply.
-/

namespace CommandSchema

open Scan

/-! ## The option that an error names -/

namespace Field

variable {s : Schema} {f g : Field} {type : ValueType}

/-- The name that an error gives to an option is an option without a value yet. -/
theorem exists_openOption (hf : f ∈ s.fields) (hkind : f.kind = .valued type) :
    ∃ o : OpenOption, o.Valid s type ∧ o.token = f.displayName ∧ f.answersTo o.form = true ∧
      ∀ v, (o.completed v).occurrences = [⟨o.form, some v⟩] := by
  cases hlong : f.long with
  | some name =>
      exact ⟨.long name, .long hf hlong hkind, by simp [OpenOption.token, displayName, hlong],
        answersTo_long hlong, fun v => rfl⟩
  | none =>
      cases hshort : f.short with
      | some c =>
          refine ⟨.short [] c, .short (by simp) hf hshort hkind, ?_, answersTo_short hshort,
            fun v => rfl⟩
          simp [OpenOption.token, displayName, hlong, hshort]
      | none =>
          have hoption : f.kind.isPositional = false := by rw [hkind]; rfl
          rcases (s.wellFormed hf).option_form hoption with hne | hne
          · exact absurd hshort hne
          · exact absurd hlong hne

theorem displayName_cases (hf : f ∈ s.fields) :
    (∃ form ∈ f.forms, form.spelling = f.displayName ∧ f.answersTo form = true) ∨
      f.kind.isPositional = true ∧ f.displayName = f.name := by
  cases hlong : f.long with
  | some name =>
      exact Or.inl ⟨.long name, long_mem_forms.mpr hlong, by simp [displayName, hlong, Form.spelling],
        answersTo_long hlong⟩
  | none =>
      cases hshort : f.short with
      | some c =>
          exact Or.inl ⟨.short c, short_mem_forms.mpr hshort,
            by simp [displayName, hlong, hshort, Form.spelling], answersTo_short hshort⟩
      | none =>
          refine Or.inr ⟨?_, by simp [displayName, hlong, hshort]⟩
          by_contra hoption
          rcases (s.wellFormed hf).option_form (by simpa using hoption) with hne | hne
          · exact hne hshort
          · exact hne hlong

/-- No two fields go by the same name in an error if one of them is an option. -/
theorem eq_of_displayName (hf : f ∈ s.fields) (hg : g ∈ s.fields)
    (hoption : f.kind.isPositional = false) (h : g.displayName = f.displayName) : g = f := by
  rcases displayName_cases hf with ⟨form, hform, hspelling, hanswers⟩ | ⟨hpositional, -⟩
  · rcases displayName_cases hg with ⟨form', hform', hspelling', hanswers'⟩ | ⟨-, hname⟩
    · have hsame : form'.spelling = form.spelling := by rw [hspelling', h, hspelling]
      obtain rfl := Form.eq_of_spelling ((s.wellFormed hf).proper hform) hsame
      exact eq_of_answersTo s hg hf hanswers' hanswers
    · have hhead : g.name.toList.head? = some '-' := by
        rw [← hname, h, ← hspelling]
        cases form <;> simp [Form.spelling]
      exact absurd hhead (fieldName_head_ne_dash (s.wellFormed hg).name)
  · rw [hoption] at hpositional
    cases hpositional

end Field

/-! ## What is missing from a line -/

namespace Line

variable {s : Schema} {line line' : Line}

/-- The required options that a line does not supply, in declaration order. -/
def missing (s : Schema) (line : Line) : List Field :=
  s.fields.filter fun f => f.isUnmet line.occurrences

/-- The checks in front of the last one are on the positional tokens. -/
theorem Passes.of_positionals (h : line.Passes s 4)
    (hps : line'.positionals = line.positionals) : line'.Passes s 4 := by
  have hremaining : line'.remaining s = line.remaining s := by simp [remaining, hps]
  intro rank hrank e he
  apply h rank hrank e
  cases he with
  | firstInvalid mem kind first fault =>
      rw [hps] at first
      exact .firstInvalid mem kind first fault
  | firstMissing mem kind required none =>
      rw [hps] at none
      exact .firstMissing mem kind required none
  | restMissing mem kind required none =>
      rw [hremaining] at none
      exact .restMissing mem kind required none
  | leftOver listless rest =>
      rw [hremaining] at rest
      exact .leftOver listless rest
  | optionMissing fields first unmet => omega

/-- The tokens form a line that can only fail for the options that it does not supply. -/
structure Lacks (s : Schema) (tokens : List String) (fields : List Field) (line : Line) :
    Prop where
  valid : line.Valid s
  reads : line.tokens = tokens
  passes : line.Passes s 4
  missing : line.missing s = fields

variable {tokens : List String} {fields : List Field} {f : Field}

theorem Lacks.parse_ok (h : line.Lacks s tokens []) : s.parse tokens = .ok (line.bindings s) := by
  obtain ⟨hline, rfl, hpasses, hmissing⟩ := h
  refine Schema.parse_of_fits hline fun rank e he => ?_
  have hmem := List.filter_eq_nil_iff.mp hmissing
  cases he with
  | @optionMissing earlier later g fields first unmet =>
      exact hmem g (by simp [fields]) (Field.isUnmet_iff.mpr unmet)
  | firstInvalid mem kind first fault =>
      exact hpasses 0 (by omega) _ (.firstInvalid mem kind first fault)
  | firstMissing mem kind required none =>
      exact hpasses 1 (by omega) _ (.firstMissing mem kind required none)
  | restMissing mem kind required none =>
      exact hpasses 2 (by omega) _ (.restMissing mem kind required none)
  | leftOver listless rest => exact hpasses 3 (by omega) _ (.leftOver listless rest)

/-- Of the options that a line lacks, the first is declared in front of the others. -/
theorem exists_split_of_missing (h : line.missing s = f :: fields) :
    ∃ earlier later, s.fields = earlier ++ f :: later ∧
      (∀ g ∈ earlier, ¬g.Unmet line.occurrences) ∧ f.Unmet line.occurrences ∧
      later.filter (fun g => g.isUnmet line.occurrences) = fields := by
  obtain ⟨earlier, later, hfields, hearlier, hf, hlater⟩ := List.filter_eq_cons_iff.mp h
  refine ⟨earlier, later, hfields, fun g hg hunmet => ?_, Field.isUnmet_iff.mp hf, hlater⟩
  exact hearlier g hg (Field.isUnmet_iff.mpr hunmet)

theorem Lacks.parse_error (h : line.Lacks s tokens (f :: fields)) :
    s.parse tokens = .error (.missingRequiredOption f.displayName) := by
  obtain ⟨hline, rfl, hpasses, hmissing⟩ := h
  obtain ⟨earlier, later, hfields, hearlier, hunmet, -⟩ := exists_split_of_missing hmissing
  exact Schema.parse_of_firstMisfit hline ⟨.optionMissing hfields hearlier hunmet, hpasses⟩

theorem exists_lacks_of_parse {option : String}
    (h : s.parse tokens = .error (.missingRequiredOption option)) :
    ∃ (line : Line) (f : Field) (fields : List Field),
      line.Lacks s tokens (f :: fields) ∧ f.displayName = option := by
  rcases line_or_stuck s tokens with
    ⟨line, hline, rfl⟩ | ⟨items, rest, e, hitems, rfl, hstuck⟩
  · rcases Schema.parse_line hline with ⟨rank, e, hfirst, hparse⟩ | ⟨-, hparse⟩
    · obtain rfl := Except.error.inj (hparse.symm.trans h)
      obtain ⟨hmisfit, hpasses⟩ := hfirst
      cases hmisfit with
      | @optionMissing earlier later f fields first unmet =>
          refine ⟨line, f, later.filter fun g => g.isUnmet line.occurrences,
            ⟨hline, rfl, hpasses, ?_⟩, rfl⟩
          refine List.filter_eq_cons_iff.mpr ⟨earlier, later, fields, ?_, ?_, rfl⟩
          · exact fun g hg hunmet => first g hg (Field.isUnmet_iff.mp hunmet)
          · exact Field.isUnmet_iff.mpr unmet
    · rw [h] at hparse
      cases hparse
  · rw [s.parse_eq_bind, scan_stuck hitems hstuck] at h
    obtain rfl := Except.error.inj h
    cases hstuck

/-! ## One option more -/

/-- A line with one more item in front. -/
def prepend (item : Item) (line : Line) : Line where
  items := item :: line.items
  tail := line.tail

theorem tokens_prepend (item : Item) (line : Line) :
    (line.prepend item).tokens = item.tokens ++ line.tokens := by
  simp [prepend, tokens]

theorem occurrences_prepend (item : Item) (line : Line) :
    (line.prepend item).occurrences = item.occurrences ++ line.occurrences := by
  simp [prepend, occurrences]

theorem positionals_prepend (item : Item) (line : Line) :
    (line.prepend item).positionals = item.positionals ++ line.positionals := by
  simp [prepend, positionals]

section Option

variable {o : Occurrence} {occs : List Occurrence}

/-- A use of one option leaves the others as they are. -/
theorem isUnmet_cons_of_ne {g : Field} (hf : f ∈ s.fields) (hg : g ∈ s.fields)
    (hform : f.answersTo o.form = true) (hne : g ≠ f) :
    g.isUnmet (o :: occs) = g.isUnmet occs := by
  have hother : g.answersTo o.form = false := by
    by_contra hanswers
    exact hne (eq_of_answersTo s hg hf (by simpa using hanswers) hform)
  simp [Field.isUnmet, Field.uses, hother]

theorem isUnmet_cons_self (hform : f.answersTo o.form = true) :
    f.isUnmet (o :: occs) = false := by
  simp [Field.isUnmet, Field.uses, hform]

/-- A use of the first option that is missing leaves those behind it. -/
theorem missing_cons (hform : f.answersTo o.form = true) (h : line.missing s = f :: fields)
    (hoccs : line'.occurrences = o :: line.occurrences) : line'.missing s = fields := by
  obtain ⟨earlier, later, hsplit, hearlier, -, hlater⟩ := exists_split_of_missing h
  have hf : f ∈ s.fields := by simp [hsplit]
  have hsame : ∀ g ∈ earlier ++ later,
      g.isUnmet (o :: line.occurrences) = g.isUnmet line.occurrences := by
    intro g hg
    rw [List.mem_append] at hg
    refine isUnmet_cons_of_ne hf ?_ hform ?_
    · rw [hsplit, List.mem_append, List.mem_cons]
      exact hg.imp_right Or.inr
    · obtain ⟨hbefore, hafter⟩ := s.not_mem_of_split hsplit
      rintro rfl
      exact hg.elim hbefore hafter
  have hnone : earlier.filter (fun g => g.isUnmet (o :: line.occurrences)) = [] := by
    refine List.filter_eq_nil_iff.mpr fun g hg => ?_
    rw [hsame g (List.mem_append_left _ hg), Field.isUnmet_iff]
    exact hearlier g hg
  have hrest : later.filter (fun g => g.isUnmet (o :: line.occurrences)) = fields := by
    rw [← hlater]
    exact List.filter_congr fun g hg => hsame g (List.mem_append_right _ hg)
  rw [missing, hoccs, hsplit, List.filter_append, hnone, List.nil_append,
    List.filter_cons_of_neg (by simp [isUnmet_cons_self hform]), hrest]

end Option

variable {type : ValueType} {v : String} {value : Value}

/-- The option that is missing first, typed in front with a value, is on the line, and what
is missing behind it stays missing. -/
theorem Lacks.exists_supplied (h : line.Lacks s tokens (f :: fields)) (hf : f ∈ s.fields)
    (hkind : f.kind = .valued type) (hv : isSeparateValue v = true)
    (hvalue : type.convert v = .ok value) :
    ∃ line' : Line, line'.Lacks s (f.displayName :: v :: tokens) fields ∧
      (line'.bindings s).binding? f.name = some ⟨f.name, value, true⟩ := by
  obtain ⟨hline, rfl, hpasses, hmissing⟩ := h
  obtain ⟨-, -, -, -, hunmet, -⟩ := exists_split_of_missing hmissing
  obtain ⟨o, ho, htoken, hform, hoccs⟩ := Field.exists_openOption hf hkind
  have hoccs' : (line.prepend (o.completed v)).occurrences =
      ⟨o.form, some v⟩ :: line.occurrences := by
    rw [occurrences_prepend, hoccs, List.singleton_append]
  have hps : (line.prepend (o.completed v)).positionals = line.positionals := by
    rw [positionals_prepend, o.positionals_completed, List.nil_append]
  have huses : f.uses (line.prepend (o.completed v)).occurrences = [⟨o.form, some v⟩] := by
    rw [hoccs', ← List.singleton_append, Field.uses_append, Field.uses_singleton, if_pos hform,
      hunmet.unused, List.append_nil]
  refine ⟨line.prepend (o.completed v), ⟨?_, ?_, hpasses.of_positionals hps,
    missing_cons hform hmissing hoccs'⟩, ?_⟩
  · exact List.forall_mem_cons.mpr ⟨ho.completed hv hvalue, hline⟩
  · rw [tokens_prepend, o.tokens_completed, htoken]
    rfl
  · have hgiven : (line.prepend (o.completed v)).given s f = some value := by
      simp [given, hkind, Field.slot, huses, hvalue, Except.toOption]
    rw [bindings_binding?, s.field?_eq_some_iff.mpr ⟨hf, rfl⟩, Option.map_some,
      Schema.settle, hgiven]
    rfl

theorem Lacks.mem (h : line.Lacks s tokens fields) (hf : f ∈ fields) :
    f ∈ s.fields ∧ f.Unmet line.occurrences := by
  rw [← h.missing, Line.missing, List.mem_filter, Field.isUnmet_iff] at hf
  exact hf

end Line

/-! ## Repairs -/

/-- The option that the error for some tokens names, with a value that converts, is put in
front of them. -/
inductive Repair (s : Schema) (tokens : List String) : List String → Prop
  | supply {f : Field} {type : ValueType} {v : String} {value : Value}
      (reported : s.parse tokens = .error (.missingRequiredOption f.displayName))
      (mem : f ∈ s.fields) (kind : f.kind = .valued type) (separate : isSeparateValue v = true)
      (converts : type.convert v = .ok value) : Repair s tokens (f.displayName :: v :: tokens)

/-- One repair after the other. -/
inductive Repairs (s : Schema) (tokens : List String) : ℕ → List String → Prop
  | none : Repairs s tokens 0 tokens
  | next {n : ℕ} {tokens' tokens'' : List String} (before : Repairs s tokens n tokens')
      (repair : Repair s tokens' tokens'') : Repairs s tokens (n + 1) tokens''

/-- The required options with a value. -/
def Schema.needed (s : Schema) : List Field :=
  s.fields.filter fun f => f.required && f.kind.takesValue

section Repair

variable {s : Schema} {tokens tokens' : List String} {fields : List Field} {line : Line}

theorem Line.Lacks.length_le (h : line.Lacks s tokens fields) : fields.length ≤ s.needed.length := by
  rw [← h.missing]
  apply List.Sublist.length_le
  apply List.monotone_filter_right
  intro f hf
  simp only [Field.isUnmet, Bool.and_eq_true] at hf ⊢
  exact hf.1

/-- Some value converts to either type. -/
theorem exists_convert (type : ValueType) :
    ∃ v value, isSeparateValue v = true ∧ type.convert v = .ok value := by
  cases type with
  | int => exact ⟨"0", .int 0, by decide, by decide⟩
  | string => exact ⟨"0", .str "0", by decide, rfl⟩

theorem Line.Lacks.exists_repair {f : Field} (h : line.Lacks s tokens (f :: fields)) :
    ∃ tokens', Repair s tokens tokens' := by
  obtain ⟨hf, -, ⟨type, hkind⟩, -⟩ := h.mem List.mem_cons_self
  obtain ⟨v, value, hv, hvalue⟩ := exists_convert type
  exact ⟨_, .supply h.parse_error hf hkind hv hvalue⟩

/-- A repair takes the first of the options that are missing. -/
theorem Repair.lacks (h : Repair s tokens tokens') (hline : line.Lacks s tokens fields) :
    ∃ (line' : Line) (f : Field) (rest : List Field),
      fields = f :: rest ∧ line'.Lacks s tokens' rest := by
  cases h with
  | @supply g type v value reported mem kind separate converts =>
      cases fields with
      | nil =>
          rw [hline.parse_ok] at reported
          cases reported
      | cons f rest =>
          obtain ⟨hf, -⟩ := hline.mem List.mem_cons_self
          rw [hline.parse_error] at reported
          have hname := ParseError.missingRequiredOption.inj (Except.error.inj reported)
          have hoption : g.kind.isPositional = false := by rw [kind]; rfl
          obtain rfl := Field.eq_of_displayName mem hf hoption hname
          obtain ⟨line', hline', -⟩ := hline.exists_supplied hf kind separate converts
          exact ⟨line', f, rest, rfl, hline'⟩

/-- After some repairs as many options less are missing. -/
theorem Repairs.lacks {n : ℕ} (h : Repairs s tokens n tokens')
    (hline : line.Lacks s tokens fields) :
    n ≤ fields.length ∧ ∃ line', Line.Lacks s tokens' (fields.drop n) line' := by
  induction h with
  | none => exact ⟨Nat.zero_le _, line, hline⟩
  | @next n tokens' tokens'' before repair ih =>
      obtain ⟨-, line', hline'⟩ := ih
      obtain ⟨line'', f, rest, hdrop, hrest⟩ := repair.lacks hline'
      have hlt : n < fields.length := by
        by_contra hle
        rw [List.drop_eq_nil_of_le (by omega)] at hdrop
        cases hdrop
      refine ⟨hlt, line'', ?_⟩
      rw [List.drop_eq_getElem_cons hlt, List.cons.injEq] at hdrop
      rw [hdrop.2]
      exact hrest

/-- An error about a required option says how to repair it.  With the option and a value in
front, the tokens are accepted, and the option has that value; or the error is about an
option declared later.  A number of such repairs, no larger than the number of the required
options with a value, is always possible and ends in success. -/
theorem parse_repaired {option : String}
    (h : s.parse tokens = .error (.missingRequiredOption option)) :
    (∃ earlier f later type, s.fields = earlier ++ f :: later ∧ f.displayName = option ∧
      (∀ g ∈ s.fields, g.displayName = option → g = f) ∧ f.kind = .valued type ∧
      ∀ v value, isSeparateValue v = true → type.convert v = .ok value →
        (∃ b, s.parse (option :: v :: tokens) = .ok b ∧
          b.binding? f.name = some ⟨f.name, value, true⟩) ∨
        ∃ g ∈ later, s.parse (option :: v :: tokens) =
          .error (.missingRequiredOption g.displayName)) ∧
    ∃ count ≤ s.needed.length, ∀ n tokens', Repairs s tokens n tokens' →
      n ≤ count ∧ (n = count → ∃ b, s.parse tokens' = .ok b) ∧
        (n < count → ∃ tokens'', Repair s tokens' tokens'') := by
  obtain ⟨line, f, fields, hline, rfl⟩ := Line.exists_lacks_of_parse h
  constructor
  · obtain ⟨earlier, later, hsplit, -, hunmet, hlater⟩ :=
      Line.exists_split_of_missing hline.missing
    obtain ⟨type, hkind⟩ := hunmet.valued
    have hf : f ∈ s.fields := by simp [hsplit]
    have hoption : f.kind.isPositional = false := by rw [hkind]; rfl
    refine ⟨earlier, f, later, type, hsplit, rfl,
      fun g hg hname => Field.eq_of_displayName hf hg hoption hname, hkind, ?_⟩
    intro v value hv hvalue
    obtain ⟨line', hline', hentry⟩ := hline.exists_supplied hf hkind hv hvalue
    cases fields with
    | nil => exact Or.inl ⟨_, hline'.parse_ok, hentry⟩
    | cons g rest =>
        have hg : g ∈ later := List.mem_of_mem_filter (by rw [hlater]; exact List.mem_cons_self)
        exact Or.inr ⟨g, hg, hline'.parse_error⟩
  · refine ⟨(f :: fields).length, hline.length_le, fun n tokens' hrepairs => ?_⟩
    obtain ⟨hle, line', hline'⟩ := hrepairs.lacks hline
    refine ⟨hle, ?_, ?_⟩
    · rintro rfl
      rw [List.drop_length] at hline'
      exact ⟨_, hline'.parse_ok⟩
    · intro hlt
      rw [List.drop_eq_getElem_cons hlt] at hline'
      exact hline'.exists_repair

end Repair

theorem parse_repaired_link :
    linkCommand.parse ["a"] = .error (.missingRequiredOption "--from") ∧
    Repairs linkCommand ["a"] 2 ["-t", "4", "--from", "x", "a"] ∧
    ∃ b, linkCommand.parse ["-t", "4", "--from", "x", "a"] = .ok b := by
  have hfrom : linkCommand.parse ["a"] = .error (.missingRequiredOption "--from") := by decide
  have ht : linkCommand.parse ["--from", "x", "a"] = .error (.missingRequiredOption "-t") := by
    decide
  have hfour : ValueType.int.convert "4" = .ok (.int 4) := by decide
  have hfirst : Repair linkCommand ["a"] ["--from", "x", "a"] :=
    .supply (f := linkCommand.fields[0]) hfrom (by decide) rfl (by decide) rfl
  have hsecond : Repair linkCommand ["--from", "x", "a"] ["-t", "4", "--from", "x", "a"] :=
    .supply (f := linkCommand.fields[1]) ht (by decide) rfl (by decide) hfour
  have hrepairs : Repairs linkCommand ["a"] 2 ["-t", "4", "--from", "x", "a"] :=
    .next (.next .none hfirst) hsecond
  obtain ⟨-, count, hcount, hrun⟩ := parse_repaired hfrom
  have hneeded : linkCommand.needed.length = 2 := by decide
  obtain ⟨hle, hok, -⟩ := hrun 2 _ hrepairs
  exact ⟨hfrom, hrepairs, hok (by omega)⟩

end CommandSchema
