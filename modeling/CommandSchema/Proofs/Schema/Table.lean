import CommandSchema.Proofs.Parse.Line
import CommandSchema.Proofs.Schema.Lookup
import Mathlib.Data.List.Induction
import Mathlib.Logic.Function.Basic

/-!
# Tables of forms

Forms can also be looked up in a table that is filled field by field, where a later field takes
over the entry of an earlier one.  No entry of a schema's table is ever taken over, so the table
and the search through the fields find the same.
-/

namespace CommandSchema

/-- The table of positions under keys. Of two entries with one key the later stays. -/
def positionTable {κ : Type} [DecidableEq κ] (key : Field → Option κ)
    (entries : List (ℕ × Field)) : κ → Option ℕ :=
  entries.foldl
    (fun table e => (key e.2).elim table fun k => Function.update table k (some e.1))
    fun _ => none

section

variable {κ : Type} [DecidableEq κ] {key : Field → Option κ} {k : κ}

theorem positionTable_append (entries : List (ℕ × Field)) (i : ℕ) (f : Field) :
    positionTable key (entries ++ [(i, f)]) k =
      if key f = some k then some i else positionTable key entries k := by
  unfold positionTable
  rw [List.foldl_append, List.foldl_cons, List.foldl_nil]
  cases hkey : key f with
  | none => simp
  | some k' =>
      by_cases hk : k = k'
      · simp [hk]
      · simp [hk, Ne.symm hk]

/-- The table holds the last position of a key. -/
theorem positionTable_eq_find? (entries : List (ℕ × Field)) :
    positionTable key entries k =
      (entries.reverse.find? fun e => key e.2 == some k).map Prod.fst := by
  induction entries using List.reverseRecOn with
  | nil => rfl
  | append_singleton entries e ih =>
      obtain ⟨i, f⟩ := e
      rw [positionTable_append, List.reverse_append, List.reverse_singleton,
        List.singleton_append, List.find?_cons, ih]
      by_cases hkey : key f = some k
      · simp [hkey]
      · rw [if_neg hkey, beq_eq_false_iff_ne.mpr hkey]

end

namespace Schema

variable (s : Schema)

/-- The field with a given form, and its position. -/
def resolve : Form → Option (ℕ × Field)
  | .short c => s.resolveShort c
  | .long n => s.resolveLong n

/-- The tables of short and of long forms. -/
def formTable : Form → Option ℕ
  | .short c => positionTable Field.short s.entries c
  | .long n => positionTable Field.long s.entries n

/-- No key of a schema's field is taken over, so its position stays in the table. -/
theorem positionTable_eq_some_iff {κ : Type} [DecidableEq κ] {key : Field → Option κ} {k : κ}
    (hkey : ∀ f g : Field, f.Compatible g → key f = some k → key g ≠ some k) {i : ℕ} :
    positionTable key s.entries k = some i ↔ ∃ f, s.fields[i]? = some f ∧ key f = some k := by
  rw [positionTable_eq_find?]
  constructor
  · intro h
    obtain ⟨⟨j, f⟩, hfind, rfl⟩ := Option.map_eq_some_iff.mp h
    have hmem := List.mem_reverse.mp (List.mem_of_find?_eq_some hfind)
    exact ⟨f, s.mem_entries.mp hmem, by simpa using List.find?_some hfind⟩
  · rintro ⟨f, hf, hfk⟩
    have hmem : (i, f) ∈ s.entries.reverse := List.mem_reverse.mpr (s.mem_entries.mpr hf)
    cases hfind : s.entries.reverse.find? fun e => key e.2 == some k with
    | none => simpa [hfk] using List.find?_eq_none.mp hfind _ hmem
    | some e =>
        obtain ⟨j, g⟩ := e
        have hg := s.mem_entries.mp (List.mem_reverse.mp (List.mem_of_find?_eq_some hfind))
        have hgk : key g = some k := by simpa using List.find?_some hfind
        rw [Option.map_some, s.position_unique hkey hf hg hfk hgk]

/-- A lookup that finds the field under a key is a lookup in the table. -/
theorem eq_table_of_finds {κ : Type} [DecidableEq κ] {key : Field → Option κ} {k : κ}
    (hkey : ∀ f g : Field, f.Compatible g → key f = some k → key g ≠ some k)
    {found : Option (ℕ × Field)}
    (hfound : ∀ i f, found = some (i, f) ↔ s.fields[i]? = some f ∧ key f = some k) :
    found = (positionTable key s.entries k).bind fun i => s.fields[i]?.map fun f => (i, f) := by
  refine Option.ext ?_
  rintro ⟨i, f⟩
  simp only [hfound, Option.bind_eq_some_iff, Option.map_eq_some_iff, Prod.mk.injEq,
    s.positionTable_eq_some_iff hkey]
  constructor
  · rintro ⟨hf, hfk⟩
    exact ⟨i, ⟨f, hf, hfk⟩, f, hf, rfl, rfl⟩
  · rintro ⟨j, ⟨g, hg, hgk⟩, g', hg', rfl, rfl⟩
    obtain rfl := Option.some.inj (hg.symm.trans hg')
    exact ⟨hg, hgk⟩

/-- Forms are found as if in their tables. -/
theorem resolve_eq_table (form : Form) :
    s.resolve form = (s.formTable form).bind fun i => s.fields[i]?.map fun f => (i, f) := by
  cases form with
  | short c =>
      exact s.eq_table_of_finds (fun _ _ h => h.short c) fun _ _ => s.resolveShort_eq_some_iff
  | long n =>
      exact s.eq_table_of_finds (fun _ _ h => h.long n) fun _ _ => s.resolveLong_eq_some_iff

end Schema

end CommandSchema
