import CommandSchema.Proofs.Parse.Totality
import CommandSchema.Proofs.Parse.Waiting

/-!
# Behind the terminator

The tokens behind the first `--` of a command line are positional.  They decide which
positional fields are filled, and which check a line may fail after it has been read; but
no option is read from them, and no error about an option depends on them.
-/

namespace CommandSchema

open Scan

/-! ## Errors about options -/

/-- Whether an error is about an option as it stands on the command line. -/
def ParseError.isAboutOption : ParseError → Bool
  | unknownOption _ | unexpectedValue _ _ | missingValue _ => true
  | invalidValue option _ _ => option.toList.head? == some '-'
  | missingPositional _ | unexpectedPositional _ | missingRequiredOption _ => false

theorem fieldName_head_ne_dash {name : String} (h : isFieldName name = true) :
    name.toList.head? ≠ some '-' := by
  unfold isFieldName at h
  intro hhead
  cases hname : name.toList with
  | nil => simp [hname] at hhead
  | cons c cs =>
      obtain rfl : c = '-' := by simpa [hname] using hhead
      simp [hname] at h

/-- The checks on a line call a field by its name, which does not look like an option. -/
theorem Line.Misfit.isAboutOption_eq_false {s : Schema} {line : Line} {rank : ℕ}
    {e : ParseError} (h : line.Misfit s rank e) : e.isAboutOption = false := by
  cases h with
  | firstInvalid mem kind first fault =>
      simpa [ParseError.isAboutOption] using fieldName_head_ne_dash (s.wellFormed mem).name
  | firstMissing mem kind required none => rfl
  | restMissing mem kind required none => rfl
  | leftOver listless rest => rfl
  | optionMissing fields first unmet => rfl

/-! ## Lines with a terminator -/

/-- An option does not take the terminator as its value. -/
theorem lacksValue_terminator (tail : List String) : LacksValue ("--" :: tail) := by
  intro token htoken
  obtain rfl : "--" = token := by simpa using htoken
  decide

/-- Tokens without a terminator get stuck whatever stands behind one, or they are the items
of a line. -/
theorem stuck_or_items (s : Schema) {front : List String} (h : "--" ∉ front) :
    (∃ e, ∀ tail, s.parse (front ++ "--" :: tail) = .error e) ∨
      ∃ items : List Item, (∀ item ∈ items, item.Valid s) ∧ items.flatMap Item.tokens = front := by
  rcases line_or_stuck s front with
    ⟨⟨items, _ | tail⟩, hline, rfl⟩ | ⟨items, rest, e, hitems, rfl, hstuck⟩
  · exact Or.inr ⟨items, hline, by simp [Line.tokens, Line.tailTokens]⟩
  · exact absurd (by simp [Line.tokens, Line.tailTokens]) h
  · refine Or.inl ⟨e, fun tail => ?_⟩
    rw [s.parse_eq_bind, List.append_assoc, scan_stuck hitems
      (hstuck.append (lacksValue_terminator tail))]
    rfl

section Parse

variable {s : Schema} {line : Line}

/-- A line that makes sense fails, if at all, for other reasons than its options. -/
theorem Line.Valid.isAboutOption_eq_false (h : line.Valid s) {e : ParseError}
    (hparse : s.parse line.tokens = .error e) : e.isAboutOption = false := by
  rcases Schema.parse_line h with ⟨rank, e', hfirst, hparse'⟩ | ⟨-, hparse'⟩
  · obtain rfl := Except.error.inj (hparse.symm.trans hparse')
    exact hfirst.misfit.isAboutOption_eq_false
  · rw [hparse] at hparse'
    cases hparse'

/-- What a line gives to an option is what its items say. -/
theorem Line.given_option (s : Schema) (line : Line) {f : Field}
    (h : f.kind.isPositional = false) :
    line.given s f = f.slot (line.items.flatMap Item.occurrences) := by
  cases hkind : f.kind with
  | positional type => simp [hkind, FieldKind.isPositional] at h
  | positionalList => simp [hkind, FieldKind.isPositional] at h
  | _ => simp [Line.given, hkind, Line.occurrences]

theorem Line.Valid.option_entry (h : line.Valid s) {b : Bindings}
    (hparse : s.parse line.tokens = .ok b) {i : ℕ} {f : Field} (hi : s.fields[i]? = some f)
    (hoption : f.kind.isPositional = false) :
    b.entries[i]? =
      some (Schema.settle f (f.slot (line.items.flatMap Item.occurrences))) := by
  rcases Schema.parse_line h with ⟨rank, e, -, hparse'⟩ | ⟨-, hparse'⟩
  · rw [hparse] at hparse'
    cases hparse'
  · obtain rfl := Except.ok.inj (hparse.symm.trans hparse')
    simp [Line.bindings, hi, Line.given_option s line hoption]

/-- Nothing behind the terminator acts as an option.  Whatever follows the first `--` of a
command line, an error about an option is the same; and as long as there is no error, each
option has the same value, and is supplied or not. -/
theorem parse_terminator {front : List String} (h : "--" ∉ front) (tail tail' : List String) :
    (∀ e : ParseError, e.isAboutOption = true →
      (s.parse (front ++ ["--"] ++ tail) = .error e ↔
        s.parse (front ++ ["--"] ++ tail') = .error e)) ∧
    ∀ b b', s.parse (front ++ ["--"] ++ tail) = .ok b →
      s.parse (front ++ ["--"] ++ tail') = .ok b' →
      ∀ (i : ℕ) (f : Field), s.fields[i]? = some f → f.kind.isPositional = false →
        ∃ entry : Binding, entry.name = f.name ∧
          b.entries[i]? = some entry ∧ b'.entries[i]? = some entry := by
  simp only [List.append_assoc, List.singleton_append]
  rcases stuck_or_items s h with ⟨e, hparse⟩ | ⟨items, hitems, rfl⟩
  · simp [hparse]
  have hline : Line.Valid s ⟨items, some tail⟩ := hitems
  have hline' : Line.Valid s ⟨items, some tail'⟩ := hitems
  constructor
  · intro e he
    constructor
    · intro hparse
      rw [hline.isAboutOption_eq_false hparse] at he
      cases he
    · intro hparse
      rw [hline'.isAboutOption_eq_false hparse] at he
      cases he
  · intro b b' hparse hparse' i f hi hoption
    exact ⟨_, rfl, hline.option_entry hparse hi hoption, hline'.option_entry hparse' hi hoption⟩

end Parse

theorem parse_terminator_copy :
    copyCommand.parse ["-vj", "--", "a"] = .error (.missingValue "-j") ∧
    copyCommand.parse ["-vj", "--", "-j4", "--"] = .error (.missingValue "-j") ∧
    copyCommand.parse ["-vj4", "--"] = .error (.missingPositional "source") ∧
    ∃ b b', copyCommand.parse ["-vj4", "--", "a"] = .ok b ∧
      copyCommand.parse ["-vj4", "--", "-j5", "--"] = .ok b' ∧
      ∃ entry : Binding, entry.name = "jobs" ∧
        b.entries[2]? = some entry ∧ b'.entries[2]? = some entry := by
  have herror : copyCommand.parse ["-vj", "--", "a"] = .error (.missingValue "-j") := by decide
  have hstuck := (parse_terminator (s := copyCommand) (by decide : "--" ∉ ["-vj"])
    ["a"] ["-j4", "--"]).1 (.missingValue "-j") rfl
  have hline := (parse_terminator (s := copyCommand) (by decide : "--" ∉ ["-vj4"])
    ["a"] ["-j5", "--"]).2
  have hb : copyCommand.parse ["-vj4", "--", "a"] = .ok ⟨"copy",
      [⟨"force", .bool false, false⟩, ⟨"v", .count 1, true⟩, ⟨"jobs", .int 4, true⟩,
        ⟨"source", .str "a", true⟩, ⟨"targets", .list [], false⟩]⟩ := by decide
  have hb' : copyCommand.parse ["-vj4", "--", "-j5", "--"] = .ok ⟨"copy",
      [⟨"force", .bool false, false⟩, ⟨"v", .count 1, true⟩, ⟨"jobs", .int 4, true⟩,
        ⟨"source", .str "-j5", true⟩, ⟨"targets", .list ["--"], true⟩]⟩ := by decide
  exact ⟨herror, hstuck.mp herror, by decide, _, _, hb, hb', hline _ _ hb hb' 2 _ rfl rfl⟩

end CommandSchema
