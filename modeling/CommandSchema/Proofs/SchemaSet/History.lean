import CommandSchema.Proofs.SchemaSet.Growth
import Mathlib.Data.List.Induction

/-!
# Histories of insertions

A set of schemas is used by inserting schemas into it, and some of the insertions fail.  Whatever
the history, the names of the set stay distinct, every lookup finds the schema of its name, and the
set holds the first schema that came under each name.  The lookups can be made through an index of
positions that is kept up in place beside the schemas: the two never come apart.
-/

namespace CommandSchema.SchemaSet

variable {s s' : SchemaSet} {x : Schema}

/-! ## Lookups -/

/-- A set whose lookups say what its list of schemas says. -/
structure Consistent (s : SchemaSet) : Prop where
  names_nodup : s.names.Nodup
  contains_iff : ∀ name, s.contains name = true ↔ name ∈ s.names
  get?_iff : ∀ name x, s.get? name = some x ↔ x ∈ s.schemas ∧ x.name = name
  require_ok_iff : ∀ name x, s.require name = .ok x ↔ s.get? name = some x
  require_error_iff : ∀ name e,
    s.require name = .error e ↔ name ∉ s.names ∧ e = .unknownSchema name

/-- Distinct names leave one place for each name. -/
theorem eq_of_name_eq (h : s.names.Nodup) {x y : Schema} (hx : x ∈ s.schemas)
    (hy : y ∈ s.schemas) (hname : x.name = y.name) : x = y :=
  List.inj_on_of_nodup_map h hx hy hname

theorem get?_eq_some_iff (h : s.names.Nodup) {name : String} :
    s.get? name = some x ↔ x ∈ s.schemas ∧ x.name = name := by
  constructor
  · intro hget
    exact ⟨List.mem_of_find?_eq_some hget, by simpa using List.find?_some hget⟩
  · rintro ⟨hx, rfl⟩
    cases hget : s.get? x.name with
    | none =>
        have hnone := List.find?_eq_none.mp hget x hx
        simp at hnone
    | some y =>
        have hy := List.mem_of_find?_eq_some hget
        have hname : y.name = x.name := by simpa using List.find?_some hget
        rw [eq_of_name_eq h hy hx hname]

theorem get?_eq_none_iff (s : SchemaSet) (name : String) :
    s.get? name = none ↔ name ∉ s.names := by
  rw [← contains_eq_true_iff, contains, Bool.not_eq_true, Option.isSome_eq_false_iff,
    Option.isNone_iff_eq_none]

theorem consistent_of_nodup (h : s.names.Nodup) : s.Consistent where
  names_nodup := h
  contains_iff := s.contains_eq_true_iff
  get?_iff _ _ := get?_eq_some_iff h
  require_ok_iff := by
    intro name x
    cases hget : s.get? name <;> simp [require, hget]
  require_error_iff := by
    intro name e
    rw [← get?_eq_none_iff]
    cases hget : s.get? name <;> simp [require, hget, eq_comm]

/-! ## One attempt -/

/-- The set after an attempt to insert a schema. -/
def attempt (s : SchemaSet) (x : Schema) : SchemaSet :=
  match s.insert x with
  | .ok s' => s'
  | .error _ => s

theorem attempt_of_taken (h : x.name ∈ s.names) : s.attempt x = s := by
  rw [attempt, insert_of_taken h]

theorem attempt_of_fresh (h : x.name ∉ s.names) :
    s.attempt x = { s with schemas := s.schemas ++ [x] } := by
  rw [attempt, insert_of_fresh h]

/-- What an attempt to insert a schema does to a set. -/
structure Takes (s : SchemaSet) (x : Schema) : Prop where
  error_iff : ∀ e, s.insert x = .error e ↔ x.name ∈ s.names ∧ e = .duplicateSchema x.name
  unchanged : x.name ∈ s.names → s.attempt x = s
  inserted : x.name ∉ s.names →
    s.insert x = .ok (s.attempt x) ∧ (s.attempt x).schemas = s.schemas ++ [x] ∧
      (s.attempt x).get? x.name = some x
  others : ∀ name, name ≠ x.name → (s.attempt x).get? name = s.get? name
  origin : (s.attempt x).origin = s.origin

theorem takes (s : SchemaSet) (x : Schema) : s.Takes x where
  error_iff := by
    intro e
    by_cases h : x.name ∈ s.names
    · rw [insert_of_taken h]
      simp [h, eq_comm]
    · rw [insert_of_fresh h]
      simp [h]
  unchanged := attempt_of_taken
  inserted := by
    intro h
    have hnone : s.get? x.name = none := (s.get?_eq_none_iff _).mpr h
    rw [attempt_of_fresh h]
    refine ⟨insert_of_fresh h, rfl, ?_⟩
    rw [get?] at hnone ⊢
    rw [List.find?_append, hnone]
    simp
  others := by
    intro name hname
    by_cases h : x.name ∈ s.names
    · rw [attempt_of_taken h]
    · rw [attempt_of_fresh h, get?, get?, List.find?_append]
      simp [hname.symm]
  origin := by
    by_cases h : x.name ∈ s.names
    · rw [attempt_of_taken h]
    · rw [attempt_of_fresh h]

theorem nodup_names_attempt (h : s.names.Nodup) (x : Schema) : (s.attempt x).names.Nodup := by
  by_cases hx : x.name ∈ s.names
  · rwa [attempt_of_taken hx]
  · exact nodup_names_of_insert h ((s.takes x).inserted hx).1

/-! ## Many attempts -/

/-- The set after a history of attempts. -/
def afterAll (s : SchemaSet) (xs : List Schema) : SchemaSet :=
  xs.foldl attempt s

theorem afterAll_append (s : SchemaSet) (xs ys : List Schema) :
    s.afterAll (xs ++ ys) = (s.afterAll xs).afterAll ys :=
  List.foldl_append

theorem afterAll_append_singleton (s : SchemaSet) (xs : List Schema) (x : Schema) :
    s.afterAll (xs ++ [x]) = (s.afterAll xs).attempt x :=
  s.afterAll_append xs [x]

theorem nodup_names_afterAll (h : s.names.Nodup) (xs : List Schema) :
    (s.afterAll xs).names.Nodup := by
  induction xs using List.reverseRecOn with
  | nil => exact h
  | append_singleton xs x ih =>
      rw [afterAll_append_singleton]
      exact nodup_names_attempt ih x

theorem origin_afterAll (s : SchemaSet) (xs : List Schema) :
    (s.afterAll xs).origin = s.origin := by
  induction xs using List.reverseRecOn with
  | nil => rfl
  | append_singleton xs x ih =>
      rw [afterAll_append_singleton, ((s.afterAll xs).takes x).origin, ih]

/-- The schemas of a list before which no other has their name. -/
def firstOfEachName (xs : List Schema) : List Schema :=
  (xs.zipIdx.filter fun e => (xs.take e.2).all fun y => y.name != e.1.name).map Prod.fst

theorem firstOfEachName_append_singleton (xs : List Schema) (x : Schema) :
    firstOfEachName (xs ++ [x]) =
      firstOfEachName xs ++ if x.name ∈ xs.map Schema.name then [] else [x] := by
  have hfront : xs.zipIdx.filter
        (fun e => ((xs ++ [x]).take e.2).all fun y => y.name != e.1.name) =
      xs.zipIdx.filter fun e => (xs.take e.2).all fun y => y.name != e.1.name := by
    apply List.filter_congr
    rintro ⟨y, i⟩ hmem
    have hi : i < xs.length := List.snd_lt_of_mem_zipIdx hmem
    rw [List.take_append_of_le_length (Nat.le_of_lt hi)]
  have hlast : ((xs ++ [x]).take xs.length).all (fun y => y.name != x.name) =
      !decide (x.name ∈ xs.map Schema.name) := by
    rw [List.take_left, Bool.eq_iff_iff, List.all_eq_true]
    simp
  have hpair : [x].zipIdx xs.length = [(x, xs.length)] := rfl
  rw [firstOfEachName, List.zipIdx_append, List.filter_append, hfront, List.map_append,
    ← firstOfEachName, Nat.zero_add, hpair, List.filter_singleton, hlast]
  by_cases h : x.name ∈ xs.map Schema.name
  · rw [if_pos h, decide_eq_true h]
    rfl
  · rw [if_neg h, decide_eq_false h]
    rfl

theorem mem_names_firstOfEachName (xs : List Schema) (name : String) :
    name ∈ (firstOfEachName xs).map Schema.name ↔ name ∈ xs.map Schema.name := by
  induction xs using List.reverseRecOn with
  | nil => rfl
  | append_singleton xs x ih =>
      rw [firstOfEachName_append_singleton, List.map_append, List.mem_append, ih, List.map_append,
        List.mem_append]
      by_cases h : x.name ∈ xs.map Schema.name
      · rw [if_pos h]
        simp only [List.map_nil, List.not_mem_nil, or_false, List.map_singleton,
          List.mem_singleton]
        constructor
        · exact Or.inl
        · rintro (hname | rfl)
          · exact hname
          · exact h
      · rw [if_neg h]

/-- A list of distinct names is left as it is. -/
theorem firstOfEachName_of_nodup {xs : List Schema} (h : (xs.map Schema.name).Nodup) :
    firstOfEachName xs = xs := by
  induction xs using List.reverseRecOn with
  | nil => rfl
  | append_singleton xs x ih =>
      rw [List.map_append, List.map_singleton, List.nodup_append_comm, List.singleton_append,
        List.nodup_cons] at h
      rw [firstOfEachName_append_singleton, if_neg h.1, ih h.2]

theorem schemas_afterAll (h : s.names.Nodup) (xs : List Schema) :
    (s.afterAll xs).schemas = firstOfEachName (s.schemas ++ xs) := by
  induction xs using List.reverseRecOn with
  | nil => rw [List.append_nil, firstOfEachName_of_nodup h]; rfl
  | append_singleton xs x ih =>
      have hnames : x.name ∈ (s.afterAll xs).names ↔ x.name ∈ (s.schemas ++ xs).map Schema.name := by
        rw [names, ih, mem_names_firstOfEachName]
      rw [afterAll_append_singleton, ← List.append_assoc, firstOfEachName_append_singleton, ← ih]
      by_cases hx : x.name ∈ (s.afterAll xs).names
      · rw [attempt_of_taken hx, if_pos (hnames.mp hx), List.append_nil]
      · rw [attempt_of_fresh hx, if_neg fun hmem => hx (hnames.mpr hmem)]

/-! ## An index of positions -/

/-- Schemas in order, and under each name the position of its schema. -/
structure Indexed where
  schemas : List Schema
  position : String → Option ℕ
  origin : Origin

namespace Indexed

/-- Nothing is indexed yet. -/
def empty (origin : Origin) : Indexed :=
  ⟨[], fun _ => none, origin⟩

/-- Inserts a schema in place: its position is noted first, then the schema is put there. -/
def insert (x : Schema) : ExceptT LoadError (StateM Indexed) Unit := do
  let t ← get
  if (t.position x.name).isSome then throw (.duplicateSchema x.name)
  modify fun t => { t with position := Function.update t.position x.name (some t.schemas.length) }
  modify fun t => { t with schemas := t.schemas ++ [x] }

/-- The result of an insertion, and what it leaves behind. -/
def runInsert (t : Indexed) (x : Schema) : Except LoadError Unit × Indexed :=
  (insert x).run.run t

/-- What a history of insertions leaves behind, whether they fail or not. -/
def afterAll (t : Indexed) (xs : List Schema) : Indexed :=
  xs.foldl (fun t x => (t.runInsert x).2) t

/-- The schema at the position that is noted under a name. -/
def get? (t : Indexed) (name : String) : Option Schema :=
  (t.position name).bind fun i => t.schemas[i]?

/-- The index and the list of schemas agree with a set. -/
structure Tracks (t : Indexed) (s : SchemaSet) : Prop where
  schemas : t.schemas = s.schemas
  position_iff : ∀ name i, t.position name = some i ↔ s.names[i]? = some name
  origin : t.origin = s.origin

variable {t : Indexed}

theorem runInsert_eq_ite (t : Indexed) (x : Schema) :
    t.runInsert x = if (t.position x.name).isSome then (.error (.duplicateSchema x.name), t)
      else (.ok (), { t with
        position := Function.update t.position x.name (some t.schemas.length)
        schemas := t.schemas ++ [x] }) := by
  rw [runInsert, insert]
  change (ite _ _ _ : ExceptT LoadError (StateM Indexed) Unit) t = _
  split <;> rfl

namespace Tracks

theorem isSome_position (h : t.Tracks s) (name : String) :
    (t.position name).isSome = s.contains name := by
  rw [Bool.eq_iff_iff, contains_eq_true_iff, Option.isSome_iff_exists, List.mem_iff_getElem?]
  simp only [h.position_iff]

/-- The position under a name is one of the list, and the schema of that name stands there. -/
theorem get?_eq (h : t.Tracks s) (hs : s.names.Nodup) (name : String) :
    t.get? name = s.get? name := by
  rw [Indexed.get?, h.schemas]
  cases hposition : t.position name with
  | none =>
      have hcontains := h.isSome_position name
      rw [hposition, Option.isSome_none, contains] at hcontains
      rw [Option.bind_none, eq_comm, ← Option.isNone_iff_eq_none, ← Option.isSome_eq_false_iff,
        ← hcontains]
  | some i =>
      have hname := (h.position_iff name i).mp hposition
      rw [names, List.getElem?_map, Option.map_eq_some_iff] at hname
      obtain ⟨x, hx, rfl⟩ := hname
      rw [Option.bind_some, hx, eq_comm, get?_eq_some_iff hs]
      exact ⟨List.mem_of_getElem? hx, rfl⟩

theorem empty (origin : Origin) : (Indexed.empty origin).Tracks (SchemaSet.empty origin) where
  schemas := rfl
  position_iff := by simp [Indexed.empty, SchemaSet.empty, names]
  origin := rfl

/-- The last position is noted under the name of the schema that is put there. -/
theorem position_insert_iff (h : t.Tracks s) (hfresh : x.name ∉ s.names) (name : String) (i : ℕ) :
    Function.update t.position x.name (some t.schemas.length) name = some i ↔
      (s.names ++ [x.name])[i]? = some name := by
  have hlength : t.schemas.length = s.names.length := by rw [h.schemas, names, List.length_map]
  rw [hlength, List.getElem?_append]
  by_cases hname : name = x.name
  · rw [hname, Function.update_self]
    by_cases hi : i < s.names.length
    · rw [if_pos hi]
      constructor
      · intro hsome
        exact absurd (Option.some.inj hsome) (Nat.ne_of_gt hi)
      · intro hx
        exact absurd (List.mem_of_getElem? hx) hfresh
    · rw [if_neg hi, List.getElem?_singleton]
      constructor
      · intro hsome
        rw [Option.some.inj hsome, if_pos (Nat.sub_self i)]
      · intro hx
        split at hx
        · rename_i hzero
          exact congrArg some (by omega)
        · cases hx
  · rw [Function.update_of_ne hname, h.position_iff]
    by_cases hi : i < s.names.length
    · rw [if_pos hi]
    · rw [if_neg hi, List.getElem?_eq_none (Nat.le_of_not_lt hi), List.getElem?_singleton]
      split
      · simp [Ne.symm hname]
      · rfl

/-- An insertion into the index succeeds as one into the set does, and one that fails leaves the
index as it was. -/
theorem runInsert_eq (h : t.Tracks s) (x : Schema) :
    (t.runInsert x).1 = (s.insert x).map (fun _ => ()) ∧
      (x.name ∈ s.names → (t.runInsert x).2 = t) ∧ (t.runInsert x).2.Tracks (s.attempt x) := by
  by_cases hx : x.name ∈ s.names
  · have htaken : (t.position x.name).isSome = true := by
      rw [h.isSome_position, contains_eq_true_iff]
      exact hx
    rw [runInsert_eq_ite, if_pos htaken, insert_of_taken hx, attempt_of_taken hx]
    exact ⟨rfl, fun _ => rfl, h⟩
  · have hfresh : ¬(t.position x.name).isSome = true := by
      rw [h.isSome_position, contains_eq_true_iff]
      exact hx
    rw [runInsert_eq_ite, if_neg hfresh, insert_of_fresh hx, attempt_of_fresh hx]
    refine ⟨rfl, fun hmem => absurd hmem hx, ⟨?_, ?_, h.origin⟩⟩
    · rw [h.schemas]
    · intro name i
      rw [names, List.map_append]
      exact h.position_insert_iff hx name i

theorem afterAll (h : t.Tracks s) (xs : List Schema) : (t.afterAll xs).Tracks (s.afterAll xs) := by
  induction xs generalizing t s with
  | nil => exact h
  | cons x xs ih => exact ih (h.runInsert_eq x).2.2

end Tracks

end Indexed

/-! ## Histories -/

/-- A row of insertions that all succeed is a history. -/
theorem afterAll_of_foldlM_insert {xs : List Schema} (h : xs.foldlM insert s = .ok s') :
    s.afterAll xs = s' := by
  induction xs generalizing s with
  | nil => exact Except.ok.inj h
  | cons x xs ih =>
      rw [List.foldlM_cons] at h
      obtain ⟨next, hnext, h⟩ := ok_of_bind h
      have hattempt : s.attempt x = next := by rw [attempt, hnext]
      rw [afterAll, List.foldl_cons, hattempt]
      exact ih h

/-- A loaded set is what a history makes out of nothing. -/
theorem Loaded.eq_afterAll (h : s.Loaded) : s = (empty s.origin).afterAll s.schemas := by
  obtain ⟨xs, hxs⟩ := h.grows
  have hschemas : s.schemas = xs := by
    rw [eq_of_foldlM_insert hxs]
    rfl
  rw [hschemas, afterAll_of_foldlM_insert hxs]

/-- After any history of insertions, whether they succeed or fail, a set has distinct names and each
of its lookups finds the schema of that name.  The next insertion fails exactly if its name is taken
and then changes nothing; else its schema comes last and no other lookup changes.  The set holds the
first schema of each name, in order.  An index that is kept up in place from the first schema on
gives the same answers all along, and nothing is lost of it when an insertion fails. -/
theorem insertions_consistent {start : SchemaSet} (hstart : start.Loaded) (xs : List Schema) :
    (start.afterAll xs).Consistent ∧ (∀ x, (start.afterAll xs).Takes x) ∧
    (start.afterAll xs).schemas = firstOfEachName (start.schemas ++ xs) ∧
    (start.afterAll xs).origin = start.origin ∧
    ∃ t : Indexed, t = (Indexed.empty start.origin).afterAll (start.schemas ++ xs) ∧
      t.Tracks (start.afterAll xs) ∧
      (∀ name, t.get? name = (start.afterAll xs).get? name) ∧
      ∀ x, (t.runInsert x).1 = ((start.afterAll xs).insert x).map (fun _ => ()) ∧
        (x.name ∈ (start.afterAll xs).names → (t.runInsert x).2 = t) ∧
        (t.runInsert x).2.Tracks ((start.afterAll xs).attempt x) := by
  have hnodup := nodup_names_afterAll hstart.nodup_names xs
  have htracks : ((Indexed.empty start.origin).afterAll (start.schemas ++ xs)).Tracks
      (start.afterAll xs) := by
    have hall := (Indexed.Tracks.empty start.origin).afterAll (start.schemas ++ xs)
    rwa [afterAll_append, ← hstart.eq_afterAll] at hall
  exact ⟨consistent_of_nodup hnodup, takes _, schemas_afterAll hstart.nodup_names xs,
    origin_afterAll start xs, _, rfl, htracks, htracks.get?_eq hnodup, htracks.runInsert_eq⟩

/-- A schema without fields. -/
def blankSchema (name : String) (description : Option String) (h : isBlankName name = false) :
    Schema :=
  ⟨name, description, [], h, rfl⟩

theorem insertions_consistent_repeated :
    ∃ start, ofText .json "\x7b\"schemas\":[\x7b\"name\":\"a\"\x7d]\x7d" = .ok start ∧
      (start.afterAll [blankSchema "b" none rfl, blankSchema "a" (some "late") rfl,
        blankSchema "c" none rfl, blankSchema "b" (some "late") rfl]).schemas =
          [blankSchema "a" none rfl, blankSchema "b" none rfl, blankSchema "c" none rfl] := by
  have hload : ofText .json "\x7b\"schemas\":[\x7b\"name\":\"a\"\x7d]\x7d" =
      .ok ⟨[blankSchema "a" none rfl], .inline⟩ := by
    have hread : DefinitionFormat.json.decodeFile "\x7b\"schemas\":[\x7b\"name\":\"a\"\x7d]\x7d" =
        .ok ⟨[⟨"a", none, []⟩]⟩ := by decide +kernel
    rw [ofText, extendText_of_decodeFile hread]
    rfl
  refine ⟨_, hload, ?_⟩
  rw [(insertions_consistent (.text _ _ hload) _).2.2.1]
  rfl

end CommandSchema.SchemaSet
