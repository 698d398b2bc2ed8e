import CommandSchema.Definition.Layout
import CommandSchema.Json.Source
import CommandSchema.Proofs.Fallible
import CommandSchema.Proofs.Json.RoundTrip

/-!
# Records are read member by member

A layout reads a written record by adding one member after the other to a draft.  What each
member keeps true of the draft is true of the draft that the result comes from, whatever text the
record was read from.
-/

namespace CommandSchema

open Json

namespace Json

/-! ## Parts of a written text -/

theorem decode_of_read {α : Type} {f : Reading → Except Fault α} {d : Document} {text : String}
    (h : read text = (d.reading, true)) : decode f text = f d.reading := by
  simp only [decode, h]
  cases f d.reading <;> rfl

theorem decode_compact {α : Type} (f : Reading → Except Fault α) {d : Document}
    (h : d.Fits maxDepth) : decode f (compact d) = f d.reading :=
  decode_of_read (read_compact h)

theorem decode_pretty {α : Type} (f : Reading → Except Fault α) {d : Document}
    (h : d.Fits maxDepth) : decode f (pretty d) = f d.reading :=
  decode_of_read (read_pretty h)

theorem exists_reading_of_decode {α : Type} {f : Reading → Except Fault α} {text : String} {a : α}
    (h : decode f text = .ok a) : ∃ r, f r = .ok a := by
  unfold decode at h
  generalize Json.read text = result at h
  obtain ⟨b, hb, h⟩ := ok_of_bind h
  split_ifs at h
  obtain rfl := Except.ok.inj h
  exact ⟨_, hb⟩

theorem mapM_reading {α : Type} {f : Reading → Except Fault α} {encode : α → Document}
    {as : List α} (h : ∀ a ∈ as, f (encode a).reading = .ok a) :
    (as.map fun a => (encode a).reading).mapM f = .ok as := by
  rw [mapM_eq_ok_iff, List.forall₂_map_left_iff, List.forall₂_same]
  exact h

theorem list_reading {α : Type} {f : Reading → Except Fault α} {encode : α → Document}
    {as : List α} (h : ∀ a ∈ as, f (encode a).reading = .ok a) :
    Source.list f (Document.list (as.map encode)).reading = .ok as := by
  have hitems := mapM_reading h
  simp only [Document.reading, Document.readings_eq_map, List.map_map]
  change (do
    let rs ← (as.map fun a => (encode a).reading).mapM f
    Reading.close true
    return rs : Except Fault (List α)) = _
  rw [hitems]
  rfl

/-- The items of a list that is read were read themselves. -/
theorem forall_mem_of_list {α : Type} {f : Reading → Except Fault α} {r : Reading} {as : List α}
    (h : Source.list f r = .ok as) : ∀ a ∈ as, ∃ r, f r = .ok a := by
  have hmismatch : ∀ r : Reading, r.mismatch "a sequence" ≠ (.ok as : Except Fault (List α)) := by
    intro r hr
    obtain ⟨found, -, hr⟩ := ok_of_bind hr
    cases hr
  cases r with
  | list items isClosed =>
      obtain ⟨bs, hbs, h⟩ := ok_of_bind h
      obtain ⟨-, -, h⟩ := ok_of_bind h
      obtain rfl := Except.ok.inj h
      intro a ha
      obtain ⟨item, -, hitem⟩ := exists_of_mem_mapM hbs a ha
      exact ⟨item, hitem⟩
  | tooDeep isList isClosed =>
      cases isList with
      | true => cases h
      | false => exact absurd h (hmismatch _)
  | _ => exact absurd h (hmismatch _)

/-- No document is read as null. -/
theorem optional_reading {α : Type} {f : Reading → Except Fault α} {d : Document} {a : α}
    (h : f d.reading = .ok a) : Source.optional f d.reading = .ok (some a) := by
  cases d <;> simp only [Document.reading, Source.optional] at h ⊢ <;> rw [h] <;> rfl

theorem read_of_optional {α : Type} {f : Reading → Except Fault α} {r : Reading} {a : α}
    (h : Source.optional f r = .ok (some a)) : f r = .ok a := by
  have hmap : ∀ {r : Reading}, (f r).map some = .ok (some a) → f r = .ok a := by
    intro r hr
    cases hf : f r with
    | error e => simp [hf, Except.map] at hr
    | ok b => simpa [hf, Except.map] using hr
  cases r with
  | null => cases h
  | _ => exact hmap h

theorem letter_reading (c : Char) : Source.letter (Document.letter c).reading = .ok c := by
  have htext : Source.text "a character" (Document.letter c).reading =
      (.ok (String.singleton c) : Except Fault String) := rfl
  rw [Source.letter, htext]
  simp [bind, Except.bind, pure, Except.pure]

theorem string_reading (s : String) : Source.string (Document.text s).reading = .ok s :=
  rfl

end Json

namespace Document

variable {α : Type} {depth depth' : ℕ}

theorem Fits.mono {d : Document} (h : d.Fits depth) (hdepth : depth ≤ depth') : d.Fits depth' := by
  induction h generalizing depth' with
  | bool b => exact .bool b
  | int hn => exact .int hn
  | text s => exact .text s
  | letter c => exact .letter c
  | list _ ih =>
      obtain ⟨depth', rfl⟩ : ∃ n, depth' = n + 1 := ⟨depth' - 1, by omega⟩
      exact .list fun d hd => ih d hd (Nat.le_of_succ_le_succ hdepth)
  | record _ ih =>
      obtain ⟨depth', rfl⟩ : ∃ n, depth' = n + 1 := ⟨depth' - 1, by omega⟩
      exact .record fun m hm => ih m hm (Nat.le_of_succ_le_succ hdepth)

theorem fits_list {encode : α → Document} (as : List α) (h : ∀ a, (encode a).Fits depth) :
    (Document.list (as.map encode)).Fits (depth + 1) := by
  refine .list fun d hd => ?_
  obtain ⟨a, -, rfl⟩ := List.mem_map.mp hd
  exact h a

theorem fits_member {encode : α → Document} (key : String) (value : Option α)
    (h : ∀ a, (encode a).Fits depth) :
    ∀ m ∈ member key (value.map encode), m.2.Fits depth := by
  cases value with
  | none => simp [member]
  | some a => simpa [member] using h a

end Document

theorem join_map_some {α : Type} (value : Option α) : (value.map some).join = value := by
  cases value <;> rfl

theorem join_map_some_comp {α β : Type} (f : α → β) (value : Option α) :
    (value.map fun a => some (f a)).join = value.map f := by
  cases value <;> rfl

namespace Slot

variable {δ γ : Type} {key : String} {get : δ → Option γ} {put : δ → Option γ → δ}
variable {read : Reading → Except Fault γ} {slot : Slot Reading (Except Fault) δ}

/-- A slot for a member with a place of its own in the draft.  Whether the member may be left out
makes no difference to one that is there. -/
inductive IsMember (key : String) (get : δ → Option γ) (put : δ → Option γ → δ)
    (read : Reading → Except Fault γ) : Slot Reading (Except Fault) δ → Prop
  | needed : IsMember key get put read (.needed key get put read)
  | spare : IsMember key get put read (.spare key get put read)

namespace IsMember

theorem isSet_eq (h : slot.IsMember key get put read) (draft : δ) :
    slot.isSet draft = (get draft).isSome := by
  cases h <;> rfl

theorem read_eq (h : slot.IsMember key get put read) (r : Reading) (draft : δ) :
    slot.read r draft = do return put draft (some (← read r)) := by
  cases h <;> rfl

end IsMember

end Slot

namespace Layout

variable {δ α β : Type} {l : Layout Reading (Except Fault) δ α} {draft draft' draft'' : δ}
variable {ms ms' : List (String × Document)}

/-- A layout takes written members into a draft. -/
def Takes (l : Layout Reading (Except Fault) δ α) (draft : δ) (ms : List (String × Document))
    (draft' : δ) : Prop :=
  (ms.map fun m => ((.ok m.1 : Except Fault String), m.2.reading)).foldlM l.add draft = .ok draft'

theorem Takes.append (h : l.Takes draft ms draft') (h' : l.Takes draft' ms' draft'') :
    l.Takes draft (ms ++ ms') draft'' := by
  unfold Takes at h h' ⊢
  rw [List.map_append, List.foldlM_append, h]
  exact h'

theorem Takes.nil (draft : δ) : l.Takes draft [] draft :=
  rfl

theorem Takes.cons {key : String} {d : Document}
    (h : l.add draft (.ok key, d.reading) = .ok draft') (h' : l.Takes draft' ms draft'') :
    l.Takes draft ((key, d) :: ms) draft'' := by
  unfold Takes at h' ⊢
  rw [List.map_cons, List.foldlM_cons, h]
  exact h'

theorem add_of_read {key : String} {r : Reading} {slot : Slot Reading (Except Fault) δ}
    (hslot : (l.slots.find? fun slot => slot.key == key) = some slot)
    (hfree : slot.isSet draft = false) (hread : slot.read r draft = .ok draft') :
    l.add draft (.ok key, r) = .ok draft' := by
  simp only [add, bind, Except.bind, hslot, hfree, hread, Bool.false_eq_true, if_false]

theorem add_member {γ : Type} {key : String} {r : Reading} {v : γ} {get : δ → Option γ}
    {put : δ → Option γ → δ} {read : Reading → Except Fault γ}
    {slot : Slot Reading (Except Fault) δ} (hmember : slot.IsMember key get put read)
    (hslot : (l.slots.find? fun slot => slot.key == key) = some slot)
    (hfree : get draft = none) (hread : read r = .ok v) :
    l.add draft (.ok key, r) = .ok (put draft (some v)) := by
  refine add_of_read hslot ?_ ?_
  · rw [hmember.isSet_eq, hfree, Option.isSome_none]
  · rw [hmember.read_eq, hread]
    rfl

/-- A member that is written if it has a value. -/
theorem Takes.member {γ : Type} (key : String) (value : Option β)
    {get : δ → Option (Option γ)} {put : δ → Option (Option γ) → δ}
    {read : Reading → Except Fault γ} {encode : β → Document} {result : β → γ}
    (hslot : (l.slots.find? fun slot => slot.key == key) =
      some (.spare key get put (Source.optional read)))
    (hread : ∀ b, read (encode b).reading = .ok (result b)) (hfree : get draft = none)
    (hnone : put draft none = draft)
    (hput : put draft (value.map fun b => some (result b)) = draft') :
    l.Takes draft (Document.member key (value.map encode)) draft' := by
  subst hput
  cases value with
  | none => exact congrArg Except.ok hnone.symm
  | some b => exact .cons (add_member .spare hslot hfree (optional_reading (hread b))) (.nil _)

theorem read_record (h : l.Takes l.start ms draft) :
    l.read (Document.record ms).reading = l.finish draft := by
  have hparts : Source.record l.expectation (Document.record ms).reading =
      .ok (.named (ms.map fun m => ((.ok m.1 : Except Fault String), m.2.reading)) (.ok ())) := by
    simp only [Document.reading, Document.memberReadings_eq_map]
    simp only [Source.record, List.map_map]
    rfl
  unfold Takes at h
  unfold read
  rw [hparts]
  simp only [bind, Except.bind, h]
  cases l.finish draft <;> rfl

end Layout

/-! ## What every reading keeps -/

variable {δ α γ : Type} {P : δ → Prop}

/-- Reading a member keeps a property of the draft. -/
def Slot.Keeps (slot : Slot Reading (Except Fault) δ) (P : δ → Prop) : Prop :=
  ∀ r draft draft', P draft → slot.read r draft = .ok draft' → P draft'

theorem Slot.keeps {key : String} {get : δ → Option γ} {put : δ → Option γ → δ}
    {read : Reading → Except Fault γ} {slot : Slot Reading (Except Fault) δ}
    (hmember : slot.IsMember key get put read)
    (h : ∀ r v draft, P draft → read r = .ok v → P (put draft (some v))) : slot.Keeps P := by
  intro r draft draft' hdraft hread
  rw [hmember.read_eq] at hread
  obtain ⟨v, hv, hput⟩ := ok_of_bind hread
  obtain rfl := Except.ok.inj hput
  exact h r v draft hdraft hv

namespace Layout

variable {l : Layout Reading (Except Fault) δ α}

/-- The layout keeps a property with every member that it knows or is given to keep. -/
structure Keeps (l : Layout Reading (Except Fault) δ α) (P : δ → Prop) : Prop where
  slots : ∀ slot ∈ l.slots, slot.Keeps P
  others : ∀ add, l.others = .kept add → ∀ key c draft, P draft → P (add key c draft)

theorem Keeps.add (h : l.Keeps P) {draft draft' : δ} {member : Except Fault String × Reading}
    (hdraft : P draft) (hadd : l.add draft member = .ok draft') : P draft' := by
  obtain ⟨key, -, hadd⟩ := ok_of_bind hadd
  split at hadd
  · rename_i slot hslot
    split_ifs at hadd
    exact h.slots slot (List.mem_of_find?_eq_some hslot) _ _ _ hdraft hadd
  · split at hadd
    · obtain ⟨-, -, hadd⟩ := ok_of_bind hadd
      obtain rfl := Except.ok.inj hadd
      exact hdraft
    · cases hadd
    · rename_i add hothers
      obtain ⟨c, -, hadd⟩ := ok_of_bind hadd
      obtain rfl := Except.ok.inj hadd
      exact h.others add hothers key c draft hdraft

theorem Keeps.foldlM (h : l.Keeps P) {members : List (Except Fault String × Reading)}
    {draft draft' : δ} (hdraft : P draft) (hrun : members.foldlM l.add draft = .ok draft') :
    P draft' :=
  invariant_of_foldlM (fun _ _ _ hbefore hadd => h.add hbefore hadd) hdraft hrun

theorem Keeps.deal {close : Except Fault Unit} {slots : List (Slot Reading (Except Fault) δ)}
    (h : ∀ slot ∈ slots, slot.Keeps P) {length : ℕ} {items : List Reading} {draft draft' : δ}
    (hdraft : P draft) (hrun : l.deal close length slots items draft = .ok draft') :
    P draft' := by
  induction slots generalizing length items draft with
  | nil =>
      cases items with
      | nil =>
          obtain ⟨-, -, hrun⟩ := ok_of_bind hrun
          obtain rfl := Except.ok.inj hrun
          exact hdraft
      | cons item items => cases hrun
  | cons slot slots ih =>
      obtain ⟨hslot, hslots⟩ := List.forall_mem_cons.mp h
      cases items with
      | nil =>
          obtain ⟨-, -, hrun⟩ := ok_of_bind hrun
          split_ifs at hrun
          exact ih hslots hdraft hrun
      | cons item items =>
          obtain ⟨next, hread, hrun⟩ := ok_of_bind hrun
          exact ih hslots (hslot _ _ _ hdraft hread) hrun

/-- Whatever a record is read from, the result comes from a draft with every property that the
layout keeps. -/
theorem Keeps.draft_of_read (h : l.Keeps P) (hstart : P l.start) {r : Reading} {a : α}
    (hread : l.read r = .ok a) : ∃ draft, P draft ∧ l.finish draft = .ok a := by
  have hcheck : ∀ {draft : δ}, Source.check Reading (l.finish draft) = .ok a →
      l.finish draft = .ok a := by
    intro draft hfinish
    cases hdraft : l.finish draft with
    | ok b =>
        rw [hdraft] at hfinish
        exact hfinish
    | error e =>
        rw [hdraft] at hfinish
        cases hfinish
  obtain ⟨parts, -, hread⟩ := ok_of_bind hread
  cases parts with
  | named members close =>
      obtain ⟨draft, hrun, hread⟩ := ok_of_bind hread
      obtain ⟨-, -, hread⟩ := ok_of_bind hread
      exact ⟨draft, h.foldlM hstart hrun, hcheck hread⟩
  | listed items close =>
      dsimp only at hread
      split at hread
      · cases hread
      · obtain ⟨draft, hrun, hread⟩ := ok_of_bind hread
        exact ⟨draft, Keeps.deal h.slots hstart hrun, hcheck hread⟩

end Layout

end CommandSchema
