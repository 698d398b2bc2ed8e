import CommandSchema.Proofs.Parse.Totality
import CommandSchema.Proofs.Schema.Table

/-!
# Resolution of forms

What a schema finds under a form is the one field that has it.  A search through the fields and a
table filled field by field find the same, for no entry of the table is taken over.  It is never a
positional field, so a scan refuses an option as unknown only if no field has its form.  The
positional entries are the positional fields in declaration order.
-/

namespace CommandSchema

open Scan

/-- The field at a position has a property, and no other position has a field with it. -/
structure TheOne (fields : List Field) (p : Field → Prop) (i : ℕ) (f : Field) : Prop where
  position : fields[i]? = some f
  holds : p f
  only : ∀ j g, fields[j]? = some g → p g → j = i

namespace Schema

variable {s : Schema}

/-! ## The one field with a form -/

theorem theOne_iff {p : Field → Prop} (hp : ∀ f g : Field, f.Compatible g → p f → ¬p g) {i : ℕ}
    {f : Field} : TheOne s.fields p i f ↔ s.fields[i]? = some f ∧ p f := by
  constructor
  · intro h
    exact ⟨h.position, h.holds⟩
  · rintro ⟨hf, hpf⟩
    exact ⟨hf, hpf, fun j g hg hpg => s.position_unique hp hg hf hpg hpf⟩

theorem resolveShort_iff_theOne {c : Char} {i : ℕ} {f : Field} :
    s.resolveShort c = some (i, f) ↔ TheOne s.fields (fun g => g.short = some c) i f := by
  rw [s.resolveShort_eq_some_iff, theOne_iff fun _ _ h => h.short c]

theorem resolveLong_iff_theOne {l : String} {i : ℕ} {f : Field} :
    s.resolveLong l = some (i, f) ↔ TheOne s.fields (fun g => g.long = some l) i f := by
  rw [s.resolveLong_eq_some_iff, theOne_iff fun _ _ h => h.long l]

theorem isPositional_eq_false_of_resolve {form : Form} {i : ℕ} {f : Field}
    (h : s.resolve form = some (i, f)) : f.kind.isPositional = false := by
  cases form with
  | short c =>
      obtain ⟨hf, hc⟩ := s.resolveShort_eq_some_iff.mp h
      exact s.isPositional_eq_false_of_short (List.mem_of_getElem? hf) hc
  | long l =>
      obtain ⟨hf, hl⟩ := s.resolveLong_eq_some_iff.mp h
      exact s.isPositional_eq_false_of_long (List.mem_of_getElem? hf) hl

/-! ## Entries in declaration order -/

theorem pairwise_entries (s : Schema) :
    s.entries.Pairwise fun e e' => e.2.Compatible e'.2 := by
  have hfields : s.entries.map Prod.snd = s.fields := by
    rw [entries, List.map_map]
    exact List.zipIdx_map_fst 0 s.fields
  have hpairs := s.pairwise_compatible
  rwa [← hfields, List.pairwise_map] at hpairs

/-- When a key is entered into a table, its place there is free. -/
theorem positionTable_eq_none {κ : Type} [DecidableEq κ] {key : Field → Option κ} {k : κ}
    (hkey : ∀ f g : Field, f.Compatible g → key f = some k → key g ≠ some k)
    {front back : List (ℕ × Field)} {i : ℕ} {f : Field} (h : s.entries = front ++ (i, f) :: back)
    (hk : key f = some k) : positionTable key front k = none := by
  have hpairs := s.pairwise_entries
  rw [h, List.pairwise_append] at hpairs
  rw [positionTable_eq_find?, Option.map_eq_none_iff, List.find?_eq_none]
  intro e he hek
  have hcompatible := hpairs.2.2 e (List.mem_reverse.mp he) (i, f) List.mem_cons_self
  exact hkey e.2 f hcompatible (by simpa using hek) hk

/-- Of fields that leave room for each other, the positional ones are one for the first token and
then one for the tokens that are left. -/
theorem find?_positional_append {entries : List (ℕ × Field)}
    (h : entries.Pairwise fun e e' => e.2.Compatible e'.2) :
    (entries.find? fun (_, f) => f.kind matches .positional _).toList ++
        (entries.find? fun (_, f) => f.kind matches .positionalList).toList =
      entries.filter fun e => e.2.kind.isPositional := by
  induction entries with
  | nil => rfl
  | cons e entries ih =>
      obtain ⟨hlater, hrest⟩ := List.pairwise_cons.mp h
      have hnone : e.2.kind.isPositional = true →
          (entries.find? fun (_, f) => f.kind matches .positional _) = none := by
        intro hpositional
        refine List.find?_eq_none.mpr fun e' he' hfirst => ?_
        obtain ⟨type, hkind⟩ := FieldKind.matches_positional_iff.mp hfirst
        exact (hlater e' he').positional hpositional type hkind
      have ih := ih hrest
      cases hkind : e.2.kind with
      | flag | counter | valued => simpa [hkind, FieldKind.isPositional] using ih
      | positional type =>
          rw [hnone (by rw [hkind]; rfl)] at ih
          simpa [hkind, FieldKind.isPositional] using ih
      | positionalList =>
          have hfirst := hnone (by rw [hkind]; rfl)
          have hlist : (entries.find? fun (_, f) => f.kind matches .positionalList) = none := by
            refine List.find?_eq_none.mpr fun e' he' hlist => ?_
            exact (hlater e' he').positionalList hkind (FieldKind.matches_positionalList_iff.mp hlist)
          rw [hfirst, hlist] at ih
          simpa [hkind, hfirst, FieldKind.isPositional] using ih

end Schema

/-! ## Options that are refused as unknown -/

section Unknown

variable {s : Schema} {st : State} {spelling : String}

theorem supply_ne_unknownOption (st : State) (i : ℕ) (type : ValueType) (lead raw : String) :
    supply st i type lead raw ≠ .error (.unknownOption spelling) := by
  intro h
  cases hv : type.convert raw with
  | ok v => simp [supply, convertFor, hv, bind, Except.bind, pure, Except.pure] at h
  | error reason =>
      rw [supply_error st lead hv] at h
      cases h

/-- A long option is unknown exactly if no field has the form. -/
theorem longOption_eq_unknown_iff {body : List Char} :
    longOption s st body = .error (.unknownOption spelling) ↔
      s.resolve (.long (String.ofList (splitAssignment body).1)) = none ∧
        spelling = (Form.long (String.ofList (splitAssignment body).1)).spelling := by
  cases hbody : splitAssignment body with
  | mk name attached =>
      simp only [longOption, hbody, Schema.resolve, Form.spelling]
      cases hresolve : s.resolveLong (String.ofList name) with
      | none => simp [eq_comm]
      | some found =>
          obtain ⟨i, f⟩ := found
          have hfound : s.resolve (.long (String.ofList name)) = some (i, f) := hresolve
          have hoption := Schema.isPositional_eq_false_of_resolve hfound
          cases hkind : f.kind <;> cases attached <;>
            simp [hkind, FieldKind.isPositional, supply_ne_unknownOption] at hoption ⊢

/-- A character of a cluster that is reached behind switches and that no field has as its form. -/
def Schema.UnknownIn (s : Schema) (cs : List Char) (c : Char) : Prop :=
  ∃ front back, cs = front ++ c :: back ∧ (∀ d ∈ front, s.IsSwitch d) ∧
    s.resolve (.short c) = none

theorem Schema.unknownIn_cons {cs : List Char} {c d : Char} :
    s.UnknownIn (d :: cs) c ↔
      (d = c ∧ s.resolve (.short c) = none) ∨ (s.IsSwitch d ∧ s.UnknownIn cs c) := by
  constructor
  · rintro ⟨_ | ⟨e, front⟩, back, hcs, hfront, hunknown⟩
    · obtain ⟨rfl, -⟩ := List.cons.inj hcs
      exact .inl ⟨rfl, hunknown⟩
    · obtain ⟨rfl, rfl⟩ := List.cons.inj hcs
      rw [List.forall_mem_cons] at hfront
      exact .inr ⟨hfront.1, front, back, rfl, hfront.2, hunknown⟩
  · rintro (⟨rfl, hunknown⟩ | ⟨hd, front, back, rfl, hfront, hunknown⟩)
    · exact ⟨[], cs, rfl, List.forall_mem_nil _, hunknown⟩
    · exact ⟨d :: front, back, rfl, List.forall_mem_cons.mpr ⟨hd, hfront⟩, hunknown⟩

/-- In a cluster the first option behind switches is unknown exactly if no field has its form. -/
theorem shortCluster_eq_unknown_iff {cs : List Char} :
    shortCluster s st cs = .error (.unknownOption spelling) ↔
      ∃ c, s.UnknownIn cs c ∧ spelling = (Form.short c).spelling := by
  -- induction on the cluster: a switch leads to the rest, every other option ends it
  induction cs generalizing st with
  | nil => simp [shortCluster, Schema.UnknownIn]
  | cons d cs ih =>
      simp only [Schema.unknownIn_cons, isSwitch_iff, Schema.resolve, Form.spelling] at ih ⊢
      rw [shortCluster]
      cases hresolve : s.resolveShort d with
      | none =>
          constructor
          · intro h
            obtain rfl := ParseError.unknownOption.inj (Except.error.inj h)
            exact ⟨d, .inl ⟨rfl, hresolve⟩, rfl⟩
          · rintro ⟨c, ⟨rfl, -⟩ | ⟨⟨i, f, hf, -⟩, -⟩, rfl⟩
            · rfl
            · cases hf
      | some found =>
          obtain ⟨i, f⟩ := found
          have hfound : s.resolve (.short d) = some (i, f) := hresolve
          have hoption := Schema.isPositional_eq_false_of_resolve hfound
          have hknown : ∀ c, ¬(d = c ∧ s.resolveShort c = none) := by
            rintro c ⟨rfl, hnone⟩
            rw [hnone] at hresolve
            cases hresolve
          cases hkind : f.kind with
          | flag | counter => simp [hkind, hknown, FieldKind.isSwitch, ih]
          | valued type =>
              by_cases hcs : cs = [] <;>
                simp [hkind, hknown, hcs, FieldKind.isSwitch, supply_ne_unknownOption]
          | positional | positionalList =>
              rw [hkind] at hoption
              cases hoption

end Unknown

/-! ## Built schemas -/

/-- What is found in the schema that is built of some fields. -/
structure Schema.ExactLookup (s : Schema) (fields : List Field) : Prop where
  short_iff : ∀ c i f, s.resolveShort c = some (i, f) ↔
    TheOne fields (fun g => g.short = some c) i f
  long_iff : ∀ l i f, s.resolveLong l = some (i, f) ↔
    TheOne fields (fun g => g.long = some l) i f
  /-- The first field that answers is the one. -/
  search : ∀ form, s.resolve form = s.entries.find? fun e => e.2.answersTo form
  /-- So is the last one that a table holds. -/
  table : ∀ form, s.resolve form =
    (s.formTable form).bind fun i => fields[i]?.map fun f => (i, f)
  shorts_free : ∀ front i f back c, s.entries = front ++ (i, f) :: back → f.short = some c →
    positionTable Field.short front c = none
  longs_free : ∀ front i f back l, s.entries = front ++ (i, f) :: back → f.long = some l →
    positionTable Field.long front l = none
  option : ∀ form i f, s.resolve form = some (i, f) → f.kind.isPositional = false
  unknown_long : ∀ st body spelling,
    longOption s st body = .error (.unknownOption spelling) ↔
      s.resolve (.long (String.ofList (splitAssignment body).1)) = none ∧
        spelling = (Form.long (String.ofList (splitAssignment body).1)).spelling
  unknown_short : ∀ st cs spelling,
    shortCluster s st cs = .error (.unknownOption spelling) ↔
      ∃ c, s.UnknownIn cs c ∧ spelling = (Form.short c).spelling
  positionals : s.positionalEntries = s.entries.filter fun e => e.2.kind.isPositional

/-- Lookup in a built schema is exact.  What is found under a form is the one field that has it, by
search as by table, and no entry of a table is taken over.  It is never a positional field, so the
only options refused as unknown are those under whose form nothing is found.  The positional entries
are the entries with a positional field, in declaration order. -/
theorem build_exactLookup {name : String} {description : Option String} {fields : List Field}
    {s : Schema} (h : Schema.build name description fields = .ok s) : s.ExactLookup fields := by
  obtain ⟨-, -, rfl⟩ := Schema.parts_of_build h
  exact {
    short_iff := fun _ _ _ => Schema.resolveShort_iff_theOne
    long_iff := fun _ _ _ => Schema.resolveLong_iff_theOne
    search := fun form => by cases form <;> rfl
    table := s.resolve_eq_table
    shorts_free := fun _ _ _ _ _ hsplit hc =>
      Schema.positionTable_eq_none (fun _ _ hfg => hfg.short _) hsplit hc
    longs_free := fun _ _ _ _ _ hsplit hl =>
      Schema.positionTable_eq_none (fun _ _ hfg => hfg.long _) hsplit hl
    option := fun _ _ _ => Schema.isPositional_eq_false_of_resolve
    unknown_long := fun _ _ _ => longOption_eq_unknown_iff
    unknown_short := fun _ _ _ => shortCluster_eq_unknown_iff
    positionals := Schema.find?_positional_append s.pairwise_entries }

theorem build_exactLookup_copy :
    ∃ s jobs, Schema.build "copy" none copyCommand.fields = .ok s ∧
      TheOne copyCommand.fields (fun g => g.short = some 'j') 2 jobs ∧
      TheOne copyCommand.fields (fun g => g.long = some "jobs") 2 jobs ∧
      longOption s (.start 5) "source=x".toList = .error (.unknownOption "--source") ∧
      shortCluster s (.start 5) "fsj".toList = .error (.unknownOption "-s") ∧
      s.positionalEntries =
        [(3, .positional "source" .string), (4, .positionalList "targets")] := by
  have hlookup := build_exactLookup copyCommand.build_self
  have hforce : copyCommand.IsSwitch 'f' :=
    ⟨.flag (some 'f') (some "force"), List.mem_cons_self, rfl, rfl⟩
  refine ⟨copyCommand, _, copyCommand.build_self, (hlookup.short_iff 'j' 2 _).mp rfl,
    (hlookup.long_iff "jobs" 2 _).mp rfl, ?_, ?_, ?_⟩
  · exact (hlookup.unknown_long _ _ _).mpr ⟨by decide, by decide⟩
  · exact (hlookup.unknown_short _ _ _).mpr
      ⟨'s', ⟨['f'], ['j'], by decide, List.forall_mem_singleton.mpr hforce, by decide⟩, by decide⟩
  · rw [hlookup.positionals]
    rfl

end CommandSchema
