import CommandSchema.Proofs.Parse.Interchange
import CommandSchema.Proofs.Parse.Terminator

/-!
# Errors that stay

A scan stops at the first error, so an error about an option is the same whatever is typed
behind the tokens that it was found in.  The one exception is an option that ends these
tokens and has no value yet: a token that does not look like an option is its value.
-/

namespace CommandSchema

open Scan

/-- The tokens are items, and then an option that has no value yet. -/
structure EndsOpen (s : Schema) (tokens : List String) (items : List Item) (o : OpenOption)
    (type : ValueType) : Prop where
  items_valid : ∀ item ∈ items, item.Valid s
  option_valid : o.Valid s type
  split : items.flatMap Item.tokens ++ [o.token] = tokens

section Persistence

variable {s : Schema} {tokens : List String} {e : ParseError}

theorem parse_of_scan_error (h : scan s tokens = .error e) : s.parse tokens = .error e := by
  rw [s.parse_eq_bind, h]
  rfl

/-- An error about an option is one of the scan. -/
theorem scan_of_isAboutOption (h : s.parse tokens = .error e) (he : e.isAboutOption = true) :
    scan s tokens = .error e := by
  rcases line_or_stuck s tokens with
    ⟨line, hline, rfl⟩ | ⟨items, rest, e', hitems, rfl, hstuck⟩
  · rw [hline.isAboutOption_eq_false h] at he
    cases he
  · have hscan := scan_stuck hitems hstuck
    rw [parse_of_scan_error hscan] at h
    rw [hscan, Except.error.inj h]

/-- A scan that failed fails in the same way behind any further tokens, unless it failed
because an option had no value yet. -/
theorem scan_append_or_endsOpen (h : scan s tokens = .error e) :
    (∀ more, scan s (tokens ++ more) = .error e) ∨
      ∃ items o type, EndsOpen s tokens items o type := by
  obtain ⟨items, rest, hitems, rfl, hstuck⟩ := exists_stuck_of_scan h
  rcases hstuck.append_or_open with hall | ⟨o, type, ho, rfl, -⟩
  · refine Or.inl fun more => ?_
    rw [List.append_assoc]
    exact scan_stuck hitems (hall more)
  · exact Or.inr ⟨items, o, type, hitems, ho, rfl⟩

namespace EndsOpen

variable {items : List Item} {o : OpenOption} {type : ValueType}

theorem scan_missing (h : EndsOpen s tokens items o type) {more : List String}
    (hmore : LacksValue more) :
    scan s (tokens ++ more) = .error (.missingValue o.form.spelling) := by
  rw [← h.split, List.append_assoc]
  exact scan_stuck h.items_valid (h.option_valid.stuck_missing hmore)

theorem scan_invalid (h : EndsOpen s tokens items o type) {v : String}
    {reason : Text.IntegerFault} (hv : isSeparateValue v = true)
    (hreason : type.convert v = .error reason) (more : List String) :
    scan s (tokens ++ v :: more) = .error (.invalidValue o.form.spelling v reason) := by
  rw [← h.split, List.append_assoc]
  exact scan_stuck h.items_valid (h.option_valid.stuck_invalid hv hreason more)

/-- A value that converts ends the item, and what follows is read from there. -/
theorem parse_completed (h : EndsOpen s tokens items o type) {v : String} {value : Value}
    (hv : isSeparateValue v = true) (hvalue : type.convert v = .ok value) (more : List String) :
    s.parse (tokens ++ v :: more) =
      s.parseFrom (Line.outcome s ⟨items ++ [o.completed v], none⟩) more := by
  have hitems : ∀ item ∈ items ++ [o.completed v], item.Valid s := by
    rw [List.forall_mem_append, List.forall_mem_singleton]
    exact ⟨h.items_valid, h.option_valid.completed hv hvalue⟩
  have hsplit : tokens ++ v :: more = (items ++ [o.completed v]).flatMap Item.tokens ++ more := by
    rw [← h.split]
    simp [o.tokens_completed]
  have hrun := run_items hitems [] []
  rw [← start_eq_reached] at hrun
  rw [hsplit, parse_append, hrun, Except.bind]
  simp [Line.outcome, State.reached, Line.positionals, Line.occurrences]

end EndsOpen

/-- What follows an error about an option cannot change it.  An option that ends the
tokens and has no value yet is no exception if what follows does not start with a value.  If
it does, the first token that follows becomes the value of that option. -/
theorem parse_error_persists (h : s.parse tokens = .error e) (he : e.isAboutOption = true)
    (more : List String) :
    ((∀ option, e ≠ .missingValue option) → s.parse (tokens ++ more) = .error e) ∧
    ((LacksValue more ∨ ¬∃ items o type, EndsOpen s tokens items o type) →
      s.parse (tokens ++ more) = .error e) ∧
    ∀ items o type v rest, EndsOpen s tokens items o type → more = v :: rest →
      isSeparateValue v = true →
      e = .missingValue o.form.spelling ∧
      (∀ reason, type.convert v = .error reason →
        s.parse (tokens ++ more) = .error (.invalidValue o.form.spelling v reason)) ∧
      ∀ value, type.convert v = .ok value →
        (∀ item ∈ items ++ [o.completed v], item.Valid s) ∧
        s.parse (tokens ++ more) =
          s.parseFrom (Line.outcome s ⟨items ++ [o.completed v], none⟩) rest := by
  have hscan := scan_of_isAboutOption h he
  have hmissing : ∀ {items o type}, EndsOpen s tokens items o type →
      e = .missingValue o.form.spelling := by
    intro items o type hopen
    have hlacks : LacksValue [] := by simp [LacksValue]
    have hnone := hopen.scan_missing hlacks
    rw [List.append_nil, hscan] at hnone
    exact Except.error.inj hnone
  refine ⟨?_, ?_, ?_⟩
  · intro hother
    rcases scan_append_or_endsOpen hscan with hall | ⟨items, o, type, hopen⟩
    · exact parse_of_scan_error (hall more)
    · exact absurd (hmissing hopen) (hother _)
  · intro hmore
    rcases scan_append_or_endsOpen hscan with hall | ⟨items, o, type, hopen⟩
    · exact parse_of_scan_error (hall more)
    · rcases hmore with hlacks | hnot
      · rw [hmissing hopen]
        exact parse_of_scan_error (hopen.scan_missing hlacks)
      · exact absurd ⟨items, o, type, hopen⟩ hnot
  · rintro items o type v rest hopen rfl hv
    refine ⟨hmissing hopen, ?_, ?_⟩
    · intro reason hreason
      exact parse_of_scan_error (hopen.scan_invalid hv hreason rest)
    · intro value hvalue
      refine ⟨?_, hopen.parse_completed hv hvalue rest⟩
      rw [List.forall_mem_append, List.forall_mem_singleton]
      exact ⟨hopen.items_valid, hopen.option_valid.completed hv hvalue⟩

end Persistence

/-- A cluster that ends in an option without a value. -/
theorem endsOpen_copy : EndsOpen copyCommand ["-vj"] [] (.short ['v'] 'j') .int := by
  refine ⟨by simp, .short ?_ (f := copyCommand.fields[2]) (by decide) rfl rfl, rfl⟩
  simp only [List.forall_mem_singleton]
  exact ⟨copyCommand.fields[1], by decide, rfl, rfl⟩

theorem parse_error_persists_copy :
    copyCommand.parse ["-x"] = .error (.unknownOption "-x") ∧
    copyCommand.parse ["-x", "-vj"] = .error (.unknownOption "-x") ∧
    copyCommand.parse ["-vj"] = .error (.missingValue "-j") ∧
    copyCommand.parse ["-vj", "-x", "4"] = .error (.missingValue "-j") ∧
    copyCommand.parse ["-vj", "x", "4"] = .error (.invalidValue "-j" "x" .invalidDigit) ∧
    copyCommand.parse ["-vj", "4", "a"] = copyCommand.parseFrom
      (Line.outcome copyCommand ⟨[.short ['v'] (some ('j', .separate "4"))], none⟩) ["a"] := by
  have hunknown : copyCommand.parse ["-x"] = .error (.unknownOption "-x") := by decide
  have hmissing : copyCommand.parse ["-vj"] = .error (.missingValue "-j") := by decide
  have hlacks : LacksValue ["-x", "4"] := by simp [LacksValue, isSeparateValue]
  obtain ⟨hsame, -, -⟩ := parse_error_persists hunknown rfl ["-vj"]
  obtain ⟨-, hstay, -⟩ := parse_error_persists hmissing rfl ["-x", "4"]
  obtain ⟨-, -, hbad⟩ := parse_error_persists hmissing rfl ["x", "4"]
  obtain ⟨-, -, hgood⟩ := parse_error_persists hmissing rfl ["4", "a"]
  obtain ⟨-, hinvalid, -⟩ := hbad _ _ _ _ _ endsOpen_copy rfl (by decide)
  obtain ⟨-, -, hvalue⟩ := hgood _ _ _ _ _ endsOpen_copy rfl (by decide)
  exact ⟨hunknown, hsame (by simp), hmissing, hstay (Or.inl hlacks), hinvalid _ (by decide),
    (hvalue (.int 4) (by decide)).2⟩

end CommandSchema
