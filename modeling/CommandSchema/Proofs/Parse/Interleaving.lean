import CommandSchema.Proofs.Parse.Totality
import Mathlib.Data.Fin.VecNotation
import Mathlib.Data.Fintype.Basic
import Mathlib.Data.List.Sort

/-!
# Interleaving options and positional tokens

The blocks of a command line are its items.  What a scan leaves behind depends on three
things only: the sequence of the positional tokens, the sequence of the values of each
option that takes one, and how often each other option is used.  Blocks can therefore
trade places unless both are positional or both give a value to the same option.
-/

namespace CommandSchema

open Scan

/-! ## Lists in another order -/

section Rearranged

variable {α β : Type} {R : α → α → Prop} {xs ys : List α}

/-- The entries of a list in other places, where entries that `R` relates keep their
order. -/
def Rearranged (R : α → α → Prop) (xs ys : List α) : Prop :=
  ∃ place : Fin xs.length ≃ Fin ys.length,
    (∀ i, ys.get (place i) = xs.get i) ∧
      ∀ i j, i < j → R (xs.get i) (xs.get j) → place i < place j

/-- The positions at which a list has a property. -/
def positionsOf (p : α → Bool) (xs : List α) : List (Fin xs.length) :=
  (List.finRange xs.length).filter (p ∘ xs.get)

theorem map_positionsOf (p : α → Bool) (xs : List α) :
    (positionsOf p xs).map xs.get = xs.filter p := by
  rw [positionsOf, ← List.filter_map, List.map_get_finRange]

theorem pairwise_positionsOf (p : α → Bool) (xs : List α) :
    (positionsOf p xs).Pairwise (· < ·) :=
  (List.pairwise_lt_finRange xs.length).filter _

theorem Rearranged.perm (h : Rearranged R xs ys) : xs.Perm ys := by
  obtain ⟨place, hplace, -⟩ := h
  have hpositions : ((List.finRange xs.length).map place).Perm (List.finRange ys.length) := by
    rw [List.perm_ext_iff_of_nodup ((List.nodup_finRange _).map place.injective)
      (List.nodup_finRange _)]
    intro k
    simpa using place.surjective k
  have hget : ys.get ∘ place = xs.get := funext hplace
  have hentries := hpositions.map ys.get
  rwa [List.map_map, hget, List.map_get_finRange, List.map_get_finRange] at hentries

/-- Entries that are pairwise related stand in the same sequence before and after. -/
theorem Rearranged.filter_eq (h : Rearranged R xs ys) {p : α → Bool}
    (hp : ∀ x y, p x = true → p y = true → R x y) : xs.filter p = ys.filter p := by
  obtain ⟨place, hplace, hkeeps⟩ := h
  have hsorted : ((positionsOf p xs).map place).Pairwise (· < ·) := by
    rw [List.pairwise_map]
    refine (pairwise_positionsOf p xs).imp_of_mem fun {i j} hi hj hij => ?_
    have hpi : p (xs.get i) = true := (List.mem_filter.mp hi).2
    have hpj : p (xs.get j) = true := (List.mem_filter.mp hj).2
    exact hkeeps i j hij (hp _ _ hpi hpj)
  have hpositions : (positionsOf p xs).map place = positionsOf p ys := by
    refine hsorted.eq_of_mem_iff (pairwise_positionsOf p ys) fun k => ?_
    simp only [positionsOf, List.mem_map, List.mem_filter, List.mem_finRange, true_and,
      Function.comp_apply]
    constructor
    · rintro ⟨i, hi, rfl⟩
      rwa [hplace]
    · intro hk
      refine ⟨place.symm k, ?_, place.apply_symm_apply k⟩
      rwa [← hplace, place.apply_symm_apply]
  have hget : ys.get ∘ place = xs.get := funext hplace
  rw [← map_positionsOf p ys, ← hpositions, List.map_map, hget, map_positionsOf]

theorem flatMap_filter (g : α → List β) (xs : List α) :
    (xs.filter fun x => !(g x).isEmpty).flatMap g = xs.flatMap g := by
  induction xs with
  | nil => rfl
  | cons x xs ih =>
      cases hx : g x with
      | nil => simp [hx, ih]
      | cons y more => simp [hx, ih]

/-- What related entries contribute to a list keeps its order. -/
theorem Rearranged.flatMap_eq (h : Rearranged R xs ys) {g : α → List β}
    (hg : ∀ x y, g x ≠ [] → g y ≠ [] → R x y) : xs.flatMap g = ys.flatMap g := by
  have hfilter : (xs.filter fun x => !(g x).isEmpty) = ys.filter fun x => !(g x).isEmpty := by
    refine h.filter_eq fun x y hx hy => hg x y ?_ ?_
    · simpa using hx
    · simpa using hy
  rw [← flatMap_filter g xs, hfilter, flatMap_filter]

end Rearranged

/-! ## Blocks of a command line -/

/-- Two blocks that cannot trade places: both are positional, or both give a value to the
same option. -/
def Item.Contends (s : Schema) (a b : Item) : Prop :=
  (a.positionals ≠ [] ∧ b.positionals ≠ []) ∨
    ∃ f ∈ s.fields, f.kind.takesValue = true ∧
      f.uses a.occurrences ≠ [] ∧ f.uses b.occurrences ≠ []

instance (s : Schema) (a b : Item) : Decidable (a.Contends s b) :=
  inferInstanceAs (Decidable (_ ∨ _))

theorem uses_flatMap (f : Field) (items : List Item) :
    f.uses (items.flatMap Item.occurrences) = items.flatMap fun item => f.uses item.occurrences := by
  rw [Field.uses, List.filter_flatMap]
  rfl

section Reorder

variable {s : Schema} {items items' : List Item}

theorem positionals_rearranged (h : Rearranged (Item.Contends s) items items') :
    items.flatMap Item.positionals = items'.flatMap Item.positionals :=
  h.flatMap_eq fun _ _ ha hb => Or.inl ⟨ha, hb⟩

theorem uses_rearranged (h : Rearranged (Item.Contends s) items items') {f : Field}
    (hf : f ∈ s.fields) (htakes : f.kind.takesValue = true) :
    f.uses (items.flatMap Item.occurrences) = f.uses (items'.flatMap Item.occurrences) := by
  rw [uses_flatMap, uses_flatMap]
  exact h.flatMap_eq fun a b ha hb => Or.inr ⟨f, hf, htakes, ha, hb⟩

/-- The uses of an option are as many in any order. -/
theorem length_uses_of_perm (f : Field) (h : items.Perm items') :
    (f.uses (items.flatMap Item.occurrences)).length =
      (f.uses (items'.flatMap Item.occurrences)).length :=
  ((h.flatMap_right Item.occurrences).filter _).length_eq

/-- A switch is told by the number of its uses, an option with a value by their order. -/
theorem slot_rearranged (h : Rearranged (Item.Contends s) items items') {f : Field}
    (hf : f ∈ s.fields) :
    f.slot (items.flatMap Item.occurrences) = f.slot (items'.flatMap Item.occurrences) := by
  have hlength := length_uses_of_perm f h.perm
  have hnil : f.uses (items.flatMap Item.occurrences) = [] ↔
      f.uses (items'.flatMap Item.occurrences) = [] := by
    rw [← List.length_eq_zero_iff, hlength, List.length_eq_zero_iff]
  cases hkind : f.kind with
  | flag => simp [Field.slot, hkind, hnil]
  | counter => simp [Field.slot, hkind, hnil, hlength]
  | valued type =>
      have huses := uses_rearranged h hf (by rw [hkind]; rfl)
      simp [Field.slot, hkind, huses]
  | positional type => simp [Field.slot, hkind]
  | positionalList => simp [Field.slot, hkind]

theorem outcome_rearranged (h : Rearranged (Item.Contends s) items items') :
    Line.outcome s ⟨items, none⟩ = Line.outcome s ⟨items', none⟩ := by
  have hslots : s.fields.map (fun f => f.slot (items.flatMap Item.occurrences)) =
      s.fields.map fun f => f.slot (items'.flatMap Item.occurrences) :=
    List.map_congr_left fun f hf => slot_rearranged h hf
  simp [Line.outcome, Line.positionals, Line.occurrences, positionals_rearranged h, hslots]

theorem scan_items {items : List Item} (h : ∀ item ∈ items, item.Valid s) :
    scan s (items.flatMap Item.tokens) = .ok (Line.outcome s ⟨items, none⟩) := by
  have hline : Line.Valid s ⟨items, none⟩ := h
  have hscan := scan_line hline
  rwa [Line.tokens, Line.tailTokens, List.append_nil] at hscan

/-- Options and positional tokens interleave freely.  The blocks of a command line without
a terminator can be put in any order in which positional tokens, and values for the same
option, follow each other as before: the scan succeeds with the same state, so the parse
has the same result, or the same error of a check after the scan. -/
theorem parse_interleaving (hvalid : ∀ item ∈ items, item.Valid s)
    (h : Rearranged (Item.Contends s) items items') :
    "--" ∉ items.flatMap Item.tokens ∧
      (∃ st, scan s (items.flatMap Item.tokens) = .ok st ∧
        scan s (items'.flatMap Item.tokens) = .ok st) ∧
      s.parse (items.flatMap Item.tokens) = s.parse (items'.flatMap Item.tokens) := by
  have hvalid' : ∀ item ∈ items', item.Valid s := by
    intro item hitem
    exact hvalid item (h.perm.mem_iff.mpr hitem)
  have hline : Line.Valid s ⟨items, none⟩ := hvalid
  have hscan := scan_items hvalid
  have hscan' := scan_items hvalid'
  rw [← outcome_rearranged h] at hscan'
  refine ⟨?_, ⟨_, hscan, hscan'⟩, ?_⟩
  · exact hline.terminator_not_mem
  · rw [s.parse_eq_bind, s.parse_eq_bind, hscan, hscan']

end Reorder

theorem parse_interleaving_copy :
    copyCommand.parse ["a", "-v", "--jobs=4", "b", "-vj", "5"] =
      copyCommand.parse ["--jobs=4", "-vj", "5", "a", "-v", "b"] ∧
    copyCommand.parse ["a", "-v", "--jobs=4", "b", "-vj", "5"] = .ok ⟨"copy",
      [⟨"force", .bool false, false⟩, ⟨"v", .count 2, true⟩, ⟨"jobs", .int 5, true⟩,
        ⟨"source", .str "a", true⟩, ⟨"targets", .list ["b"], true⟩]⟩ := by
  let items : List Item := [.positional "a", .short ['v'] none,
    .long "jobs" (some (.attached "4")), .positional "b", .short ['v'] (some ('j', .separate "5"))]
  let items' : List Item := [.long "jobs" (some (.attached "4")),
    .short ['v'] (some ('j', .separate "5")), .positional "a", .short ['v'] none, .positional "b"]
  have hvalid : ∀ item ∈ items, item.Valid copyCommand := by
    have hjobs : (Field.valued (some 'j') (some "jobs") .int).withDefault (.int 2) ∈
        copyCommand.fields := by decide
    have hswitches : ∀ c ∈ ['v'], copyCommand.IsSwitch c :=
      List.forall_mem_singleton.mpr ⟨.counter (some 'v') none, by decide, rfl, rfl⟩
    have hfour : (Supply.attached "4").Fits .int := ⟨by simp, .int 4, by decide⟩
    have hfive : (Supply.separate "5").Fits .int :=
      ⟨by simp [isSeparateValue], .int 5, by decide⟩
    simp only [items, List.forall_mem_cons]
    exact ⟨.positional (Or.inr (by decide)), .cluster (by decide) hswitches,
      .longValue hjobs rfl rfl hfour, .positional (Or.inr (by decide)),
      .clusterValue hswitches hjobs rfl rfl hfive (by decide), by simp⟩
  have hrearranged : Rearranged (Item.Contends copyCommand) items items' :=
    ⟨⟨![2, 3, 0, 4, 1], ![2, 4, 0, 1, 3], by decide, by decide⟩, by decide, by decide⟩
  have htokens : items.flatMap Item.tokens = ["a", "-v", "--jobs=4", "b", "-vj", "5"] := by decide
  have htokens' : items'.flatMap Item.tokens = ["--jobs=4", "-vj", "5", "a", "-v", "b"] := by decide
  have hparse := (parse_interleaving hvalid hrearranged).2.2
  rw [htokens, htokens'] at hparse
  exact ⟨hparse, by decide⟩

end CommandSchema
