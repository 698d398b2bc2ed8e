import CommandSchema.Proofs.Parse.Binding

/-!
# Why a command line is rejected

An error is about the first thing that is wrong with the tokens.  While they are read
this is the first item that cannot be completed; once they form a line it is the first
of the checks that the line fails.
-/

namespace CommandSchema

open Scan

/-! ## Errors of the scan -/

/-- A scan that fails is stuck behind some valid items. -/
theorem exists_stuck_of_scan {s : Schema} {tokens : List String} {e : ParseError}
    (h : scan s tokens = .error e) :
    ∃ (items : List Item) (rest : List String), (∀ item ∈ items, item.Valid s) ∧
      items.flatMap Item.tokens ++ rest = tokens ∧ Stuck s rest e := by
  rcases line_or_stuck s tokens with
    ⟨line, hline, rfl⟩ | ⟨items, rest, e', hitems, rfl, hstuck⟩
  · rw [scan_line hline] at h
    cases h
  · rw [scan_stuck hitems hstuck] at h
    obtain rfl := Except.error.inj h
    exact ⟨items, rest, hitems, rfl, hstuck⟩

theorem scan_eq_error_iff {s : Schema} {tokens : List String} {e : ParseError} :
    scan s tokens = .error e ↔
      ∃! split : List Item × List String, (∀ item ∈ split.1, item.Valid s) ∧
        split.1.flatMap Item.tokens ++ split.2 = tokens ∧ Stuck s split.2 e := by
  constructor
  · intro h
    obtain ⟨items, rest, hitems, htokens, hstuck⟩ := exists_stuck_of_scan h
    refine ⟨(items, rest), ⟨hitems, htokens, hstuck⟩, ?_⟩
    rintro ⟨items', rest'⟩ ⟨hitems', htokens', hstuck'⟩
    obtain ⟨rfl, rfl⟩ := stuck_unique hitems' hitems hstuck' hstuck (htokens'.trans htokens.symm)
    rfl
  · rintro ⟨⟨items, rest⟩, ⟨hitems, rfl, hstuck⟩, -⟩
    exact scan_stuck hitems hstuck

/-! ## Errors of the checks -/

namespace Line

/-- A line fails a check for one reason. -/
theorem Misfit.unique {s : Schema} {line : Line} {rank : ℕ} {e e' : ParseError}
    (h : line.Misfit s rank e) (h' : line.Misfit s rank e') : e = e' := by
  cases h with
  | @firstInvalid f type token reason mem kind first fault =>
      obtain ⟨mem', kind', first', fault'⟩ := h'
      obtain rfl := s.eq_of_positional mem mem' kind kind'
      obtain rfl := FieldKind.positional.inj (kind.symm.trans kind')
      obtain rfl := Option.some.inj (first.symm.trans first')
      obtain rfl := Except.error.inj (fault.symm.trans fault')
      rfl
  | firstMissing mem kind required none =>
      cases h' with
      | firstMissing mem' kind' required' none' =>
          obtain rfl := s.eq_of_positional mem mem' kind kind'
          rfl
  | restMissing mem kind required none =>
      cases h' with
      | restMissing mem' kind' required' none' =>
          obtain rfl := s.eq_of_positionalList mem mem' kind kind'
          rfl
  | leftOver listless rest =>
      cases h' with
      | leftOver listless' rest' =>
          obtain ⟨rfl, -⟩ := List.cons.inj (rest.symm.trans rest')
          rfl
  | @optionMissing earlier later f fields first unmet =>
      cases h' with
      | @optionMissing earlier' later' f' fields' first' unmet' =>
          have hfind := find?_isUnmet_eq_some_iff.mpr ⟨unmet, earlier, later, fields, first⟩
          have hfind' := find?_isUnmet_eq_some_iff.mpr ⟨unmet', earlier', later', fields', first'⟩
          obtain rfl := Option.some.inj (hfind.symm.trans hfind')
          rfl

theorem FirstMisfit.unique {s : Schema} {line : Line} {rank rank' : ℕ} {e e' : ParseError}
    (h : line.FirstMisfit s rank e) (h' : line.FirstMisfit s rank' e') : e = e' := by
  rcases Nat.lt_trichotomy rank rank' with hrank | rfl | hrank
  · exact absurd h.misfit (h'.passes rank hrank e)
  · exact h.misfit.unique h'.misfit
  · exact absurd h'.misfit (h.passes rank' hrank e')

end Line

theorem Schema.bind_eq_error_iff {s : Schema} {line : Line} {e : ParseError}
    (h : line.Valid s) :
    s.bind (line.outcome s) = .error e ↔ ∃ rank, line.FirstMisfit s rank e := by
  rcases Schema.bind_line h with ⟨rank, e', hfirst, hbind⟩ | ⟨hfits, hbind⟩
  · rw [hbind]
    constructor
    · intro herror
      obtain rfl := Except.error.inj herror
      exact ⟨rank, hfirst⟩
    · rintro ⟨rank', hfirst'⟩
      rw [hfirst.unique hfirst']
  · rw [hbind]
    constructor
    · intro herror
      cases herror
    · rintro ⟨rank, hfirst⟩
      exact absurd hfirst.misfit (hfits rank e)

theorem Schema.parse_eq_bind (s : Schema) (tokens : List String) :
    s.parse tokens = (scan s tokens).bind s.bind :=
  rfl

/-- A valid line is parsed, or the first check that it fails decides the error. -/
theorem Schema.parse_line {s : Schema} {line : Line} (h : line.Valid s) :
    (∃ rank e, line.FirstMisfit s rank e ∧ s.parse line.tokens = .error e) ∨
      (∀ rank e, ¬line.Misfit s rank e) ∧ s.parse line.tokens = .ok (line.bindings s) := by
  rw [s.parse_eq_bind, scan_line h, Except.bind]
  exact Schema.bind_line h

theorem Schema.parse_of_firstMisfit {s : Schema} {line : Line} {rank : ℕ} {e : ParseError}
    (h : line.Valid s) (hfirst : line.FirstMisfit s rank e) : s.parse line.tokens = .error e := by
  rw [s.parse_eq_bind, scan_line h, Except.bind]
  exact (Schema.bind_eq_error_iff h).mpr ⟨rank, hfirst⟩

theorem Schema.parse_of_fits {s : Schema} {line : Line} (h : line.Valid s)
    (hfits : ∀ rank e, ¬line.Misfit s rank e) :
    s.parse line.tokens = .ok (line.bindings s) := by
  rcases Schema.parse_line h with ⟨rank, e, hfirst, -⟩ | ⟨-, hparse⟩
  · exact absurd hfirst.misfit (hfits rank e)
  · exact hparse

/-- The tokens fail to parse with the error of the first thing that is wrong: the item
that they get stuck at, which is the same whatever way they are split, or else the first
check that the line fails which they form. -/
theorem parse_rejects_first_problem (s : Schema) (tokens : List String) (e : ParseError) :
    (scan s tokens = .error e ↔
        ∃! split : List Item × List String, (∀ item ∈ split.1, item.Valid s) ∧
          split.1.flatMap Item.tokens ++ split.2 = tokens ∧ Stuck s split.2 e) ∧
      (s.parse tokens = .error e ↔
        scan s tokens = .error e ∨
          ∃ line : Line, line.Valid s ∧ line.tokens = tokens ∧
            ∃ rank, line.FirstMisfit s rank e) := by
  refine ⟨scan_eq_error_iff, ?_⟩
  rw [s.parse_eq_bind]
  cases hscan : scan s tokens with
  | error e' =>
      rw [Except.bind]
      constructor
      · intro herror
        rw [Except.error.inj herror]
        exact Or.inl rfl
      · rintro (herror | ⟨line, hline, rfl, -⟩)
        · rw [Except.error.inj herror]
        · rw [scan_line hline] at hscan
          cases hscan
  | ok st =>
      obtain ⟨line, hline, rfl, rfl⟩ := exists_line_of_scan hscan
      rw [Except.bind, Schema.bind_eq_error_iff hline]
      constructor
      · intro hfirst
        exact Or.inr ⟨line, hline, rfl, hfirst⟩
      · rintro (herror | ⟨line', hline', htokens, hfirst⟩)
        · cases herror
        · rw [line_unique hline' hline htokens] at hfirst
          exact hfirst

end CommandSchema
