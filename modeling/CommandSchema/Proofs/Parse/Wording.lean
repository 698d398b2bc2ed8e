import CommandSchema.Proofs.Parse.Totality
import CommandSchema.Proofs.Text.Quoted

/-!
# Results and errors on one line

Tokens that hold no line feed are parsed to something that is said on one line: what a result
shows of its values is quoted, and what an error names without quoting it is an option that was
written in a token or declared in the schema.
-/

namespace CommandSchema

open Scan Text

variable {s : Schema} {tokens : List String}

/-! ## Names -/

theorem isLine_of_isFieldName {name : String} (h : isFieldName name = true) : IsLine name := by
  intro hmem
  unfold isFieldName at h
  split at h
  · cases h
  · rename_i c cs hname
    rw [Bool.and_eq_true, List.all_eq_true] at h
    rw [hname] at hmem
    rcases List.mem_cons.mp hmem with rfl | hmem
    · exact absurd h.1 (by decide)
    · exact absurd (h.2 _ hmem) (by decide)

theorem isLine_of_isLongName {long : String} (h : isLongName long = true) : IsLine long :=
  fun hmem => absurd (isAlphanum_of_mem_longName h hmem (by decide)) (by decide)

theorem isLine_of_isShortName {c : Char} (h : isShortName c = true) :
    IsLine (String.singleton c) := by
  intro hmem
  rw [String.toList_singleton, List.mem_singleton] at hmem
  subst hmem
  exact absurd h (by decide)

theorem isLine_spelling_long {long : String} (h : IsLine long) :
    IsLine (Form.long long).spelling :=
  isLine_append.mpr ⟨by decide, h⟩

theorem isLine_spelling_short {c : Char} (h : IsLine (String.singleton c)) :
    IsLine (Form.short c).spelling :=
  isLine_append.mpr ⟨by decide, h⟩

namespace Field.WellFormed

variable {f : Field} (h : f.WellFormed)

include h

theorem isLine_name : IsLine f.name :=
  isLine_of_isFieldName h.name

theorem isLine_long {long : String} (hlong : f.long = some long) : IsLine long :=
  isLine_of_isLongName (h.long long hlong)

theorem isLine_short {c : Char} (hshort : f.short = some c) : IsLine (String.singleton c) :=
  isLine_of_isShortName (h.short c hshort)

theorem isLine_displayName : IsLine f.displayName := by
  unfold displayName
  split
  · rename_i long hlong
    exact isLine_spelling_long (h.isLine_long hlong)
  · rename_i c _ hshort
    exact isLine_spelling_short (h.isLine_short hshort)
  · exact h.isLine_name

end Field.WellFormed

/-! ## Results -/

theorem Value.isLine_render (v : Value) : IsLine v.render := by
  cases v with
  | bool b => cases b <;> decide
  | int n => exact isLine_decimal _
  | count n => exact isLine_decimal _
  | str text => exact isLine_quote text
  | list items =>
      have hitems : IsLine (", ".intercalate (items.map quote)) := by
        refine isLine_intercalate (by decide) fun text htext => ?_
        obtain ⟨item, -, rfl⟩ := List.mem_map.mp htext
        exact isLine_quote item
      exact isLine_around (by decide) hitems (by decide)

/-- The line of a result is one line if the name of the schema is. -/
theorem Bindings.isLine_render {b : Bindings} (hname : IsLine s.name)
    (h : s.parse tokens = .ok b) : IsLine b.render := by
  obtain ⟨value, hassigns⟩ := exists_assigns_of_parse h
  have hshown : ∀ f ∈ s.fields, IsLine (f.shown (value f)) := by
    intro f hf
    rw [Field.shown, isLine_append, isLine_append, isLine_append]
    exact ⟨⟨⟨by decide, (s.wellFormed hf).isLine_name⟩, by decide⟩, (value f).isLine_render⟩
  have hrender : b.render = _ := hassigns.render_eq b.schema
  rw [hrender, isLine_append, isLine_append, isLine_append, isLine_join, List.forall_mem_map,
    hassigns.schema]
  exact ⟨⟨⟨by decide, hname⟩, hshown⟩, by decide⟩

/-! ## Errors -/

namespace ParseError

/-- What an error names without quoting it: an option or a field. -/
def subject : ParseError → String
  | unknownOption name | unexpectedValue name _ | missingValue name | invalidValue name _ _
  | missingPositional name | missingRequiredOption name => name
  | unexpectedPositional _ => ""

theorem isLine_message {e : ParseError} (h : IsLine e.subject) : IsLine e.message := by
  have hreason : ∀ reason : IntegerFault, IsLine reason.message := by
    intro reason
    cases reason <;> decide
  cases e with
  | unknownOption name | missingValue name | missingPositional name
  | missingRequiredOption name => exact isLine_around (by decide) h (by decide)
  | unexpectedValue name value =>
      exact isLine_append.mpr ⟨isLine_around (by decide) h (by decide), isLine_quote value⟩
  | invalidValue name value reason =>
      have hvalue : IsLine ("invalid value " ++ quote value ++ " for `") :=
        isLine_around (by decide) (isLine_quote value) (by decide)
      exact isLine_append.mpr ⟨isLine_around hvalue h (by decide), hreason reason⟩
  | unexpectedPositional token => exact isLine_append.mpr ⟨by decide, isLine_quote token⟩

end ParseError

/-- An option that the tokens get stuck at is named as it was written. -/
theorem Stuck.isLine_subject {e : ParseError} (h : Stuck s tokens e)
    (htokens : ∀ token ∈ tokens, IsLine token) : IsLine e.subject := by
  cases h with
  | @unknownLong name attached rest =>
      -- no field has this name, so all that is known of it is that it stands in the token
      have htoken := htokens _ List.mem_cons_self
      refine isLine_spelling_long ?_
      cases attached with
      | none => exact (isLine_append.mp htoken).2
      | some value =>
          rw [longToken, isLine_append, isLine_append, isLine_append] at htoken
          exact htoken.1.1.2
  | unexpectedValue mem form => exact isLine_spelling_long ((s.wellFormed mem).isLine_long form)
  | longMissing mem form => exact isLine_spelling_long ((s.wellFormed mem).isLine_long form)
  | longInvalid mem form => exact isLine_spelling_long ((s.wellFormed mem).isLine_long form)
  | @unknownShort cs c more rest =>
      have htoken := htokens _ List.mem_cons_self
      refine isLine_spelling_short fun hmem => ?_
      rw [String.toList_singleton, List.mem_singleton] at hmem
      rw [isLine_append] at htoken
      refine htoken.2 ?_
      rw [String.toList_ofList, hmem]
      exact List.mem_append_right _ List.mem_cons_self
  | shortMissing _ mem form => exact isLine_spelling_short ((s.wellFormed mem).isLine_short form)
  | shortInvalid _ mem form => exact isLine_spelling_short ((s.wellFormed mem).isLine_short form)

theorem Line.Misfit.isLine_subject {line : Line} {rank : ℕ} {e : ParseError}
    (h : line.Misfit s rank e) : IsLine e.subject := by
  cases h with
  | firstInvalid mem => exact (s.wellFormed mem).isLine_name
  | firstMissing mem => exact (s.wellFormed mem).isLine_name
  | restMissing mem => exact (s.wellFormed mem).isLine_name
  | leftOver => exact List.not_mem_nil
  | @optionMissing earlier later f fields =>
      have hf : f ∈ s.fields := fields ▸ List.mem_append_right _ List.mem_cons_self
      exact (s.wellFormed hf).isLine_displayName

/-- Tokens without line feeds are rejected on one line. -/
theorem ParseError.isLine_message_of_parse {e : ParseError}
    (htokens : ∀ token ∈ tokens, IsLine token) (h : s.parse tokens = .error e) :
    IsLine e.message := by
  refine isLine_message ?_
  rw [s.parse_eq_bind] at h
  cases hscan : scan s tokens with
  | error e' =>
      rw [hscan] at h
      obtain rfl := Except.error.inj h
      obtain ⟨items, rest, -, rfl, hstuck⟩ := exists_stuck_of_scan hscan
      exact hstuck.isLine_subject fun token htoken =>
        htokens token (List.mem_append_right _ htoken)
  | ok st =>
      rw [hscan, Except.bind] at h
      obtain ⟨line, hline, -, rfl⟩ := exists_line_of_scan hscan
      obtain ⟨rank, hfirst⟩ := (Schema.bind_eq_error_iff hline).mp h
      exact hfirst.misfit.isLine_subject

end CommandSchema
