import CommandSchema.Proofs.Parse.Reading

/-!
# Where a command line gets stuck

Tokens that do not start with a complete item are stuck, each for one reason.
Every list of tokens is a line that makes sense or gets stuck after some complete
items, and the machine reports just the reason for which it gets stuck.
-/

namespace CommandSchema

open Scan

/-- A long option as one token, with its attached value if there is one. -/
def longToken (name : String) : Option String → String
  | none => "--" ++ name
  | some value => "--" ++ name ++ "=" ++ value

/-- Whether no value can be read off the front of the tokens. -/
def LacksValue (tokens : List String) : Prop :=
  ∀ token, tokens.head? = some token → isSeparateValue token = false

/-- The tokens start with something that no item can be completed from, and
what the error says about it. -/
inductive Stuck (s : Schema) : List String → ParseError → Prop
  /-- No field has the long form before the first `=`. -/
  | unknownLong {name : String} {attached : Option String} {rest : List String}
      (proper : name = "" → attached ≠ none) (equals : '=' ∉ name.toList)
      (unknown : ∀ f ∈ s.fields, f.long ≠ some name) :
      Stuck s (longToken name attached :: rest) (.unknownOption (Form.long name).spelling)
  /-- A value is attached to a long option that stands alone. -/
  | unexpectedValue {name value : String} {rest : List String} {f : Field}
      (mem : f ∈ s.fields) (form : f.long = some name) (kind : f.kind.isSwitch = true) :
      Stuck s (longToken name (some value) :: rest)
        (.unexpectedValue (Form.long name).spelling value)
  /-- Nothing follows a long option that could be its value. -/
  | longMissing {name : String} {rest : List String} {f : Field} {type : ValueType}
      (mem : f ∈ s.fields) (form : f.long = some name) (kind : f.kind = .valued type)
      (lacks : LacksValue rest) :
      Stuck s (longToken name none :: rest) (.missingValue (Form.long name).spelling)
  /-- The value of a long option does not convert. -/
  | longInvalid {name : String} {given : Supply} {rest : List String} {f : Field}
      {type : ValueType} {reason : Text.IntegerFault}
      (mem : f ∈ s.fields) (form : f.long = some name) (kind : f.kind = .valued type)
      (separate : ∀ v, given = .separate v → isSeparateValue v = true)
      (fault : type.convert given.value = .error reason) :
      Stuck s ((Item.long name (some given)).tokens ++ rest)
        (.invalidValue (Form.long name).spelling given.value reason)
  /-- No field has the short form after some switches of a cluster. -/
  | unknownShort {cs : List Char} {c : Char} {more : List Char} {rest : List String}
      (proper : cs = [] → c ≠ '-') (switches : ∀ c ∈ cs, s.IsSwitch c)
      (unknown : ∀ f ∈ s.fields, f.short ≠ some c) :
      Stuck s (("-" ++ String.ofList (cs ++ c :: more)) :: rest)
        (.unknownOption (Form.short c).spelling)
  /-- Nothing follows the last option of a cluster that could be its value. -/
  | shortMissing {cs : List Char} {c : Char} {rest : List String} {f : Field}
      {type : ValueType} (switches : ∀ c ∈ cs, s.IsSwitch c) (mem : f ∈ s.fields)
      (form : f.short = some c) (kind : f.kind = .valued type) (lacks : LacksValue rest) :
      Stuck s (("-" ++ String.ofList (cs ++ [c])) :: rest)
        (.missingValue (Form.short c).spelling)
  /-- The value of an option in a cluster does not convert. -/
  | shortInvalid {cs : List Char} {c : Char} {given : Supply} {rest : List String}
      {f : Field} {type : ValueType} {reason : Text.IntegerFault}
      (switches : ∀ c ∈ cs, s.IsSwitch c) (mem : f ∈ s.fields) (form : f.short = some c)
      (kind : f.kind = .valued type)
      (separate : ∀ v, given = .separate v → isSeparateValue v = true)
      (nonempty : given ≠ .attached "") (fault : type.convert given.value = .error reason) :
      Stuck s ((Item.short cs (some (c, given))).tokens ++ rest)
        (.invalidValue (Form.short c).spelling given.value reason)

/-! ## The machine gets stuck where the line does -/

theorem longOption_unknown {s : Schema} {name : String} (attached : Option String)
    (st : State) (equals : '=' ∉ name.toList)
    (unknown : ∀ f ∈ s.fields, f.long ≠ some name)
    (proper : name = "" → attached ≠ none) :
    openToken s st (longToken name attached) =
      .error (.unknownOption (Form.long name).spelling) := by
  have hresolve := s.resolveLong_eq_none_iff.mpr unknown
  cases attached with
  | none =>
      have hne : name ≠ "" := fun h => proper h rfl
      rw [longToken, openToken_long s st hne]
      simp [longOption, splitAssignment_of_not_mem equals, hresolve, Form.spelling]
  | some value =>
      rw [longToken, openToken_assignment]
      simp [longOption, splitAssignment_append _ equals, hresolve, Form.spelling]

theorem longOption_unexpected {s : Schema} {name value : String} {f : Field} (st : State)
    (mem : f ∈ s.fields) (form : f.long = some name) (kind : f.kind.isSwitch = true) :
    openToken s st (longToken name (some value)) =
      .error (.unexpectedValue (Form.long name).spelling value) := by
  obtain ⟨i, hf⟩ := List.getElem?_of_mem mem
  have hresolve := s.resolveLong_eq_some_iff.mpr ⟨hf, form⟩
  have equals := equals_not_mem_longName (longName_of_mem mem form)
  rw [longToken, openToken_assignment]
  simp only [longOption, splitAssignment_append _ equals, String.ofList_toList, hresolve]
  cases hkind : f.kind <;> simp [hkind, FieldKind.isSwitch, Form.spelling] at kind ⊢

theorem shortCluster_unknown {s : Schema} {c : Char} (more : List Char) (st : State)
    (unknown : ∀ f ∈ s.fields, f.short ≠ some c) :
    shortCluster s st (c :: more) = .error (.unknownOption (Form.short c).spelling) := by
  have hresolve := s.resolveShort_eq_none_iff.mpr unknown
  simp [shortCluster, hresolve, Form.spelling]

/-- How the machine fails on tokens: at the first one, at the one after it, or
because an option waits and nothing is left. -/
inductive Fails (s : Schema) (st : State) : List String → ParseError → Prop
  | first {token : String} {rest : List String} {e : ParseError}
      (fault : openToken s st token = .error e) : Fails s st (token :: rest) e
  | ended {token spelling : String} {st' : State} {i : ℕ} {type : ValueType}
      (waits : openToken s st token = .ok { st' with mode := .value i type spelling }) :
      Fails s st [token] (.missingValue spelling)
  | second {token next spelling : String} {rest : List String} {e : ParseError}
      {st' : State} {i : ℕ} {type : ValueType}
      (waits : openToken s st token = .ok { st' with mode := .value i type spelling })
      (fault : step s { st' with mode := .value i type spelling } next = .error e) :
      Fails s st (token :: next :: rest) e

theorem Fails.of_lacksValue {s : Schema} {st st' : State} {lead spelling : String}
    {rest : List String} {i : ℕ} {type : ValueType}
    (waits : openToken s st lead = .ok { st' with mode := .value i type spelling })
    (lacks : LacksValue rest) : Fails s st (lead :: rest) (.missingValue spelling) := by
  cases rest with
  | nil => exact .ended waits
  | cons next rest =>
      refine .second waits ?_
      rw [step_value, lacks next rfl, if_neg Bool.false_ne_true]

theorem Fails.of_fault {s : Schema} {st st' : State} {lead mark spelling : String}
    {rest : List String} {i : ℕ} {type : ValueType} {given : Supply}
    {reason : Text.IntegerFault}
    (waits : openToken s st lead = .ok { st' with mode := .value i type spelling })
    (takes : ∀ raw, given = .attached raw →
      openToken s st (lead ++ mark ++ raw) = supply st' i type spelling raw)
    (separate : ∀ v, given = .separate v → isSeparateValue v = true)
    (fault : type.convert given.value = .error reason) :
    Fails s st (given.tokens lead mark ++ rest)
      (.invalidValue spelling given.value reason) := by
  cases given with
  | attached raw =>
      refine .first ?_
      rw [takes raw rfl]
      exact supply_error st' spelling fault
  | separate raw =>
      refine .second waits ?_
      rw [step_value, if_pos (separate raw rfl)]
      exact supply_error st' spelling fault

theorem Stuck.fails {s : Schema} {tokens : List String} {e : ParseError}
    (h : Stuck s tokens e) (ps : List String) (occs : List Occurrence) :
    Fails s (.reached s .options ps occs) tokens e := by
  cases h with
  | unknownLong proper equals unknown =>
      exact .first (longOption_unknown _ _ equals unknown proper)
  | unexpectedValue mem form kind =>
      exact .first (longOption_unexpected _ mem form kind)
  | longMissing mem form kind lacks =>
      obtain ⟨i, hf⟩ := List.getElem?_of_mem mem
      exact .of_lacksValue (openToken_long_waits _ hf form kind) lacks
  | longInvalid mem form kind separate fault =>
      obtain ⟨i, hf⟩ := List.getElem?_of_mem mem
      exact .of_fault (openToken_long_waits _ hf form kind)
        (fun raw _ => openToken_long_takes _ raw hf form kind) separate fault
  | @unknownShort cs c more rest proper switches unknown =>
      have hhead : (cs ++ c :: more).head? ≠ some '-' := by
        cases cs with
        | nil => simpa using proper rfl
        | cons d ds => simpa using (switches d List.mem_cons_self).ne_dash
      refine .first ?_
      rw [openToken_short s _ (by simp) hhead, shortCluster_switches s _ _ _ switches]
      exact shortCluster_unknown more _ unknown
  | shortMissing switches mem form kind lacks =>
      obtain ⟨i, hf⟩ := List.getElem?_of_mem mem
      exact .of_lacksValue (openToken_cluster_waits ps occs switches hf form kind) lacks
  | shortInvalid switches mem form kind separate nonempty fault =>
      obtain ⟨i, hf⟩ := List.getElem?_of_mem mem
      exact .of_fault (openToken_cluster_waits ps occs switches hf form kind)
        (fun raw hraw => openToken_cluster_takes ps occs switches hf form kind
          fun h => nonempty (by rw [hraw, h])) separate fault

theorem Fails.run_finish {s : Schema} {st : State} {tokens : List String} {e : ParseError}
    (h : Fails s st tokens e) (hst : st.mode = .options) :
    (run s st tokens).bind finish = .error e := by
  cases h with
  | first fault => rw [run_cons, step_options hst, fault]; rfl
  | ended waits => rw [run_singleton, step_options hst, waits]; rfl
  | second waits fault =>
      rw [run_cons, step_options hst, waits, Except.bind, run_cons, fault]
      rfl

/-- No prefix of tokens on which the machine fails leaves it ready for the next
item. -/
theorem Fails.mode_ne_options {s : Schema} {st st' : State} {tokens rest : List String}
    {e : ParseError} (h : Fails s st (tokens ++ rest) e) (hst : st.mode = .options)
    (hne : tokens ≠ []) (hrun : run s st tokens = .ok st') : st'.mode ≠ .options := by
  obtain ⟨token, tokens, rfl⟩ := List.exists_cons_of_ne_nil hne
  rw [run_cons, step_options hst] at hrun
  rw [List.cons_append] at h
  generalize htail : tokens ++ rest = tail at h
  cases h with
  | first fault =>
      rw [fault] at hrun
      cases hrun
  | ended waits =>
      obtain ⟨rfl, -⟩ := List.append_eq_nil_iff.mp htail
      rw [waits] at hrun
      cases hrun
      simp
  | second waits fault =>
      rw [waits, Except.bind] at hrun
      cases tokens with
      | nil =>
          cases hrun
          simp
      | cons next more =>
          obtain rfl := (List.cons.inj htail).1
          rw [run_cons, fault] at hrun
          cases hrun

theorem Item.tokens_ne_nil (item : Item) : item.tokens ≠ [] := by
  rcases item with token | ⟨name, _ | _ | _⟩ | ⟨cs, _ | ⟨c, _ | _⟩⟩ <;>
    simp [Item.tokens, Supply.tokens]

/-- Tokens that are stuck do not start with a valid item. -/
theorem Stuck.not_item {s : Schema} {item : Item} {rest : List String} {e : ParseError}
    (h : Stuck s (item.tokens ++ rest) e) : ¬item.Valid s := by
  intro hitem
  exact (h.fails [] []).mode_ne_options rfl item.tokens_ne_nil (run_item hitem [] []) rfl

theorem scan_stuck {s : Schema} {items : List Item} {rest : List String} {e : ParseError}
    (hitems : ∀ item ∈ items, item.Valid s) (h : Stuck s rest e) :
    scan s (items.flatMap Item.tokens ++ rest) = .error e := by
  have hrun := run_items hitems [] []
  have hfail := (h.fails (items.flatMap Item.positionals)
    (items.flatMap Item.occurrences)).run_finish rfl
  rw [scan_eq_bind, run_append, hrun]
  exact hfail

end CommandSchema
