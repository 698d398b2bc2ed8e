import CommandSchema.Proofs.Parse.Extension

/-!
# The order of declarations

Two schemas that declare the same fields in different orders read a command line in the
same way.  Their forms and their positional fields are the same, so the same tokens make
an item, get stuck, or fail a check.  Only where several required options are missing does
the order decide which of them is reported.
-/

namespace CommandSchema

open Scan

/-- What one command line gives for two declarations of the same fields. -/
inductive Reordered (s : Schema) (tokens : List String) :
    Except ParseError Bindings → Except ParseError Bindings → Prop
  | results {b b' : Bindings} (schema : b.schema = b'.schema)
      (entries : b.entries.Perm b'.entries) (get? : ∀ name, b.get? name = b'.get? name)
      (isPresent : ∀ name, b.isPresent name = b'.isPresent name) :
      Reordered s tokens (.ok b) (.ok b')
  | error (e : ParseError) : Reordered s tokens (.error e) (.error e)
  /-- Each of the two options is required, and the line that was read supplies neither. -/
  | optionMissing {line : Line} {f g : Field} (valid : line.Valid s)
      (reads : line.tokens = tokens) (mem : f ∈ s.fields) (unmet : f.Unmet line.occurrences)
      (mem' : g ∈ s.fields) (unmet' : g.Unmet line.occurrences) :
      Reordered s tokens (.error (.missingRequiredOption f.displayName))
        (.error (.missingRequiredOption g.displayName))

section Permutation

variable {s s' : Schema} {line : Line}

/-- Tokens are stuck for the forms that there are and those that there are not. -/
theorem Stuck.perm (hperm : s.fields.Perm s'.fields) {tokens : List String} {e : ParseError}
    (h : Stuck s tokens e) : Stuck s' tokens e := by
  have hsub := hperm.subset
  have hall : ∀ {p : Field → Prop}, (∀ f ∈ s.fields, p f) → ∀ f ∈ s'.fields, p f :=
    fun h f hf => h f (hperm.mem_iff.mpr hf)
  have hswitches : ∀ {cs : List Char}, (∀ c ∈ cs, s.IsSwitch c) → ∀ c ∈ cs, s'.IsSwitch c :=
    fun h c hc => (h c hc).mono hsub
  cases h with
  | unknownLong proper equals unknown => exact .unknownLong proper equals (hall unknown)
  | unexpectedValue mem form kind => exact .unexpectedValue (hsub mem) form kind
  | longMissing mem form kind lacks => exact .longMissing (hsub mem) form kind lacks
  | longInvalid mem form kind separate fault =>
      exact .longInvalid (hsub mem) form kind separate fault
  | unknownShort proper switches unknown =>
      exact .unknownShort proper (hswitches switches) (hall unknown)
  | shortMissing switches mem form kind lacks =>
      exact .shortMissing (hswitches switches) (hsub mem) form kind lacks
  | shortInvalid switches mem form kind separate nonempty fault =>
      exact .shortInvalid (hswitches switches) (hsub mem) form kind separate nonempty fault

theorem takesFirst_perm (hperm : s.fields.Perm s'.fields) : s.takesFirst = s'.takesFirst := by
  rw [Bool.eq_iff_iff, Line.takesFirst_eq_true_iff, Line.takesFirst_eq_true_iff]
  simp only [hperm.mem_iff]

theorem field?_perm (hperm : s.fields.Perm s'.fields) (name : String) :
    s.field? name = s'.field? name := by
  apply Option.ext
  intro f
  rw [s.field?_eq_some_iff, s'.field?_eq_some_iff, hperm.mem_iff]

namespace Line

theorem remaining_perm (hperm : s.fields.Perm s'.fields) :
    line.remaining s = line.remaining s' := by
  rw [remaining, remaining, takesFirst_perm hperm]

theorem given_perm (hperm : s.fields.Perm s'.fields) (f : Field) :
    line.given s f = line.given s' f := by
  rw [given, given, remaining_perm hperm]

/-- The checks on a line are the same in any order of the fields.  The last of them may
find another option that is missing. -/
theorem Misfit.perm (hperm : s.fields.Perm s'.fields) {rank : ℕ} {e : ParseError}
    (h : line.Misfit s rank e) :
    ∃ e', line.Misfit s' rank e' ∧ (e' = e ∨
      ∃ f ∈ s.fields, ∃ g ∈ s.fields, f.Unmet line.occurrences ∧ g.Unmet line.occurrences ∧
        e = .missingRequiredOption f.displayName ∧ e' = .missingRequiredOption g.displayName) := by
  cases h with
  | firstInvalid mem kind first fault =>
      exact ⟨_, .firstInvalid (hperm.subset mem) kind first fault, Or.inl rfl⟩
  | firstMissing mem kind required none =>
      exact ⟨_, .firstMissing (hperm.subset mem) kind required none, Or.inl rfl⟩
  | restMissing mem kind required none =>
      rw [remaining_perm hperm] at none
      exact ⟨_, .restMissing (hperm.subset mem) kind required none, Or.inl rfl⟩
  | leftOver listless rest =>
      rw [remaining_perm hperm] at rest
      have hlistless : ∀ f ∈ s'.fields, f.kind ≠ .positionalList :=
        fun f hf => listless f (hperm.mem_iff.mpr hf)
      exact ⟨_, .leftOver hlistless rest, Or.inl rfl⟩
  | @optionMissing earlier later f fields first unmet =>
      have hf : f ∈ s.fields := by simp [fields]
      have hsome : (s'.fields.find? fun g => g.isUnmet line.occurrences).isSome = true :=
        List.find?_isSome.mpr ⟨f, hperm.subset hf, Field.isUnmet_iff.mpr unmet⟩
      obtain ⟨g, hfind⟩ := Option.isSome_iff_exists.mp hsome
      obtain ⟨unmet', earlier', later', fields', first'⟩ := find?_isUnmet_eq_some_iff.mp hfind
      have hg : g ∈ s.fields := hperm.mem_iff.mpr (List.mem_of_find?_eq_some hfind)
      exact ⟨_, .optionMissing fields' first' unmet',
        Or.inr ⟨f, hf, g, hg, unmet, unmet', rfl, rfl⟩⟩

theorem not_misfit_perm (hperm : s.fields.Perm s'.fields) {rank : ℕ}
    (h : ∀ e, ¬line.Misfit s rank e) (e : ParseError) : ¬line.Misfit s' rank e := by
  intro he
  obtain ⟨e', he', -⟩ := he.perm hperm.symm
  exact h e' he'

theorem bindings_perm (hperm : s.fields.Perm s'.fields) :
    (line.bindings s).entries.Perm (line.bindings s').entries := by
  have hgiven : (fun f => Schema.settle f (line.given s f)) =
      fun f => Schema.settle f (line.given s' f) := by
    funext f
    rw [given_perm hperm]
  rw [bindings, bindings, hgiven]
  exact hperm.map _

theorem bindings_binding?_perm (hperm : s.fields.Perm s'.fields) (name : String) :
    (line.bindings s).binding? name = (line.bindings s').binding? name := by
  simp only [bindings_binding?, field?_perm hperm, given_perm hperm]

end Line

/-- The order in which the fields of a schema are declared does not change what a command
line means.  It gives the same values, supplied or not, or it fails for the same reason; if
several required options are missing, the error may name another of them. -/
theorem parse_reordered (hname : s.name = s'.name) (hperm : s.fields.Perm s'.fields)
    (tokens : List String) : Reordered s tokens (s.parse tokens) (s'.parse tokens) := by
  rcases line_or_stuck s tokens with
    ⟨line, hline, rfl⟩ | ⟨items, rest, e, hitems, rfl, hstuck⟩
  · have hline' := hline.mono hperm.subset
    rcases Schema.parse_line hline with ⟨rank, e, hfirst, hparse⟩ | ⟨hfits, hparse⟩
    · obtain ⟨e', he', hsame⟩ := hfirst.misfit.perm hperm
      have hpasses : line.Passes s' rank :=
        fun lower hlower => Line.not_misfit_perm hperm (hfirst.passes lower hlower)
      rw [hparse, Schema.parse_of_firstMisfit hline' ⟨he', hpasses⟩]
      rcases hsame with rfl | ⟨f, hf, g, hg, unmet, unmet', rfl, rfl⟩
      · exact .error e'
      · exact .optionMissing hline rfl hf unmet hg unmet'
    · have hfits' := fun rank => Line.not_misfit_perm hperm (hfits rank)
      rw [hparse, Schema.parse_of_fits hline' hfits']
      refine .results hname (Line.bindings_perm hperm) ?_ ?_
      · intro name
        rw [Bindings.get?, Bindings.get?, Line.bindings_binding?_perm hperm]
      · intro name
        rw [Bindings.isPresent, Bindings.isPresent, Line.bindings_binding?_perm hperm]
  · have hitems' : ∀ item ∈ items, item.Valid s' :=
      fun item hitem => (hitems item hitem).mono hperm.subset
    rw [s.parse_eq_bind, s'.parse_eq_bind, scan_stuck hitems hstuck,
      scan_stuck hitems' (hstuck.perm hperm)]
    exact .error e

end Permutation

/-- The command with its fields declared in another order. -/
def reorderedLinkCommand : Schema :=
  { linkCommand with
    fields := [.valued (some 't') none .int, .positionalList "names",
      .valued (some 'f') (some "from") .string]
    consistent := by decide }

theorem parse_reordered_link :
    linkCommand.fields.Perm reorderedLinkCommand.fields ∧
    Reordered linkCommand ["a"] (.error (.missingRequiredOption "--from"))
      (.error (.missingRequiredOption "-t")) ∧
    Reordered linkCommand ["-t4", "--from=x", "a"]
      (.ok ⟨"link", [⟨"from", .str "x", true⟩, ⟨"t", .int 4, true⟩, ⟨"names", .list ["a"], true⟩]⟩)
      (.ok ⟨"link", [⟨"t", .int 4, true⟩, ⟨"names", .list ["a"], true⟩,
        ⟨"from", .str "x", true⟩]⟩) := by
  have hperm : linkCommand.fields.Perm reorderedLinkCommand.fields := by decide
  have hname : linkCommand.name = reorderedLinkCommand.name := rfl
  have hmissing := parse_reordered hname hperm ["a"]
  have hresults := parse_reordered hname hperm ["-t4", "--from=x", "a"]
  have hfrom : linkCommand.parse ["a"] = .error (.missingRequiredOption "--from") := by decide
  have ht : reorderedLinkCommand.parse ["a"] = .error (.missingRequiredOption "-t") := by decide
  have hb : linkCommand.parse ["-t4", "--from=x", "a"] = .ok ⟨"link",
      [⟨"from", .str "x", true⟩, ⟨"t", .int 4, true⟩, ⟨"names", .list ["a"], true⟩]⟩ := by decide
  have hb' : reorderedLinkCommand.parse ["-t4", "--from=x", "a"] = .ok ⟨"link",
      [⟨"t", .int 4, true⟩, ⟨"names", .list ["a"], true⟩, ⟨"from", .str "x", true⟩]⟩ := by decide
  rw [hfrom, ht] at hmissing
  rw [hb, hb'] at hresults
  exact ⟨hperm, hmissing, hresults⟩

end CommandSchema
