import CommandSchema.Proofs.Parse.Totality

/-!
# Spellings of one option

Switches can be typed in one cluster or apart, a value can follow its option in the same
token or in the next one, and an option can be named by its short or by its long form.
The state of the machine after each spelling is the same whatever state it starts from, so
a spelling can be replaced by another one in front of the terminator of any command line.
-/

namespace CommandSchema

open Scan

/-! ## Modes -/

section Modes

variable {s : Schema} {st st' : State}

theorem switch_mode (st : State) (i : ℕ) (kind : FieldKind) : (switch st i kind).mode = st.mode := by
  cases kind <;> rfl

theorem keptByOptions_mode (s : Schema) : KeptByOptions s fun st => st.mode ≠ .positionals where
  switch := by
    intro st i kind hst
    rwa [switch_mode]
  wait := fun _ _ _ _ => nofun
  supply := fun _ _ _ => nofun

/-- Only the terminator makes every later token positional. -/
theorem step_mode {token : String} (htoken : token ≠ "--") (hst : st.mode ≠ .positionals)
    (h : step s st token = .ok st') : st'.mode ≠ .positionals :=
  (keptByOptions_mode s).step (fun hst => hst) (fun hend => absurd hend htoken) hst h

theorem run_mode {tokens : List String} (htokens : "--" ∉ tokens)
    (hst : st.mode ≠ .positionals) (h : run s st tokens = .ok st') :
    st'.mode ≠ .positionals := by
  induction tokens generalizing st with
  | nil =>
      obtain rfl := Except.ok.inj h
      exact hst
  | cons token tokens ih =>
      rw [List.mem_cons, not_or] at htokens
      rw [run_cons] at h
      cases hstep : step s st token with
      | error e => simp [hstep, Except.bind] at h
      | ok next =>
          rw [hstep, Except.bind] at h
          exact ih htokens.2 (step_mode (Ne.symm htokens.1) hst hstep) h

end Modes

/-! ## Outcomes up to a spelling -/

/-- Two outcomes that are equal, or that report the same fault of one option, which is
spelled in one way here and in another way there. -/
inductive SameUpTo (p q : String) {α : Type} :
    Except ParseError α → Except ParseError α → Prop
  | same (r : Except ParseError α) : SameUpTo p q r r
  | invalidValue (raw : String) (reason : Text.IntegerFault) :
      SameUpTo p q (.error (.invalidValue p raw reason)) (.error (.invalidValue q raw reason))
  | missingValue : SameUpTo p q (.error (.missingValue p)) (.error (.missingValue q))

theorem SameUpTo.bind {p q : String} {α β : Type} {x y : Except ParseError α}
    (h : SameUpTo p q x y) (f : α → Except ParseError β) : SameUpTo p q (x.bind f) (y.bind f) := by
  cases h with
  | same r => exact .same _
  | invalidValue raw reason => exact .invalidValue raw reason
  | missingValue => exact .missingValue

theorem sameUpTo_supply (st : State) (i : ℕ) (type : ValueType) (p q raw : String) :
    SameUpTo p q (supply st i type p raw) (supply st i type q raw) := by
  cases hv : type.convert raw with
  | error reason =>
      rw [supply_error st p hv, supply_error st q hv]
      exact .invalidValue raw reason
  | ok v =>
      have hsame : supply st i type p raw = supply st i type q raw := by
        simp [supply, convertFor, hv]
      rw [hsame]
      exact .same _

/-! ## Contexts -/

/-- What comes of the tokens from a state of the machine on. -/
def Schema.parseFrom (s : Schema) (st : State) (tokens : List String) :
    Except ParseError Bindings :=
  ((run s st tokens).bind finish).bind s.bind

section Contexts

variable {s : Schema} {st : State}

theorem parse_append (s : Schema) (front back : List String) :
    s.parse (front ++ back) =
      (run s (.start s.size) front).bind fun st => s.parseFrom st back := by
  rw [s.parse_eq_bind, scan_eq_bind, ← start_eq_reached, run_append]
  cases run s (.start s.size) front <;> rfl

theorem parseFrom_append (front back : List String) :
    s.parseFrom st (front ++ back) =
      (run s st front).bind fun st => s.parseFrom st back := by
  rw [Schema.parseFrom, run_append]
  cases run s st front <;> rfl

theorem parseFrom_waiting {i : ℕ} {type : ValueType} {spelling token : String}
    (hst : st.mode = .value i type spelling) (htoken : isSeparateValue token = false)
    (rest : List String) :
    s.parseFrom st (token :: rest) = .error (.missingValue spelling) := by
  have hstep : step s st token = .error (.missingValue spelling) := by
    simp [step, hst, htoken]
  rw [Schema.parseFrom, run_cons, hstep]
  rfl

/-- Two ways to go on with a command line lead to related outcomes if they do so from
every state between two items.  An option that still waits for its value fails before
either of them, since both begin with a dash. -/
theorem parse_congr {R : Except ParseError Bindings → Except ParseError Bindings → Prop}
    (hrefl : ∀ r, R r r) {front : List String} (hfront : "--" ∉ front)
    {token token' : String} {back back' : List String}
    (htoken : isSeparateValue token = false) (htoken' : isSeparateValue token' = false)
    (h : ∀ st : State, st.mode = .options →
      R (s.parseFrom st (token :: back)) (s.parseFrom st (token' :: back'))) :
    R (s.parse (front ++ token :: back)) (s.parse (front ++ token' :: back')) := by
  rw [parse_append, parse_append]
  cases hrun : run s (.start s.size) front with
  | error e => exact hrefl _
  | ok st =>
      have hmode := run_mode hfront (by simp [State.start]) hrun
      rw [Except.bind, Except.bind]
      cases hst : st.mode with
      | options => exact h st hst
      | value i type spelling =>
          rw [parseFrom_waiting hst htoken, parseFrom_waiting hst htoken']
          exact hrefl _
      | positionals => exact absurd hst hmode

/-- Tokens that lead to the same state can be replaced by each other. -/
theorem parse_congr_run {front : List String} (hfront : "--" ∉ front) {token token' : String}
    {more more' : List String} (htoken : isSeparateValue token = false)
    (htoken' : isSeparateValue token' = false)
    (h : ∀ st : State, st.mode = .options →
      run s st (token :: more) = run s st (token' :: more')) (back : List String) :
    s.parse (front ++ token :: more ++ back) = s.parse (front ++ token' :: more' ++ back) := by
  rw [List.append_assoc, List.append_assoc, List.cons_append, List.cons_append]
  refine parse_congr (fun r => rfl) hfront htoken htoken' fun st hst => ?_
  rw [← List.cons_append, ← List.cons_append, parseFrom_append, parseFrom_append, h st hst]

/-- While an option waits, its spelling is kept for the errors of its value only. -/
theorem sameUpTo_waiting (st : State) (i : ℕ) (type : ValueType) (p q : String)
    (tokens : List String) :
    SameUpTo p q (s.parseFrom { st with mode := .value i type p } tokens)
      (s.parseFrom { st with mode := .value i type q } tokens) := by
  cases tokens with
  | nil => exact .missingValue
  | cons token tokens =>
      by_cases htoken : isSeparateValue token = true
      · unfold Schema.parseFrom
        rw [run_cons, run_cons, step_value, step_value, if_pos htoken, if_pos htoken]
        exact (((sameUpTo_supply st i type p q token).bind _).bind _).bind _
      · rw [Bool.not_eq_true] at htoken
        rw [parseFrom_waiting rfl htoken, parseFrom_waiting rfl htoken]
        exact .missingValue

/-- Two spellings under which an option waits for its value. -/
theorem sameUpTo_waits {i : ℕ} {type : ValueType} {lead lead' p q : String}
    (hst : st.mode = .options)
    (hlead : openToken s st lead = .ok { st with mode := .value i type p })
    (hlead' : openToken s st lead' = .ok { st with mode := .value i type q })
    (rest : List String) :
    SameUpTo p q (s.parseFrom st (lead :: rest)) (s.parseFrom st (lead' :: rest)) := by
  have hfrom : ∀ {token : String} {next : State}, openToken s st token = .ok next →
      s.parseFrom st (token :: rest) = s.parseFrom next rest := by
    intro token next hopen
    rw [Schema.parseFrom, run_cons, step_options hst, hopen]
    rfl
  rw [hfrom hlead, hfrom hlead']
  exact sameUpTo_waiting st i type p q rest

/-- Two spellings under which an option takes its value. -/
theorem sameUpTo_takes {i : ℕ} {type : ValueType} {whole whole' p q v : String}
    (hst : st.mode = .options)
    (hwhole : openToken s st whole = supply st i type p v)
    (hwhole' : openToken s st whole' = supply st i type q v) (rest : List String) :
    SameUpTo p q (s.parseFrom st (whole :: rest)) (s.parseFrom st (whole' :: rest)) := by
  rw [Schema.parseFrom, Schema.parseFrom, run_cons, run_cons, step_options hst,
    step_options hst, hwhole, hwhole']
  exact (((sameUpTo_supply st i type p q v).bind _).bind _).bind _

end Contexts

/-! ## Single options from any state -/

section Options

variable {s : Schema} {i : ℕ} {f : Field} {type : ValueType}

theorem isSeparateValue_form (form : Form) (text : String) :
    isSeparateValue (form.spelling ++ text) = false := by
  cases form <;> simp [isSeparateValue, Form.spelling]

theorem openToken_form {x : Char} (hf : s.fields[i]? = some f) (hx : f.short = some x)
    (st : State) (rest : List Char) :
    openToken s st ((Form.short x).spelling ++ String.ofList rest) =
      shortCluster s st (x :: rest) := by
  have htoken : (Form.short x).spelling ++ String.ofList rest =
      "-" ++ String.ofList ([] ++ x :: rest) := by
    apply String.toList_inj.mp
    simp [Form.spelling]
  rw [htoken]
  exact openToken_cluster st rest (fun c hc => absurd hc List.not_mem_nil) hf hx

theorem openToken_form_nil {x : Char} (hf : s.fields[i]? = some f) (hx : f.short = some x)
    (st : State) : openToken s st (Form.short x).spelling = shortCluster s st [x] := by
  have hform := openToken_form hf hx st []
  rwa [show (Form.short x).spelling ++ String.ofList [] = (Form.short x).spelling by simp] at hform

theorem openToken_form_waits {x : Char} (hf : s.fields[i]? = some f) (hx : f.short = some x)
    (hk : f.kind = .valued type) (st : State) :
    openToken s st (Form.short x).spelling =
      .ok { st with mode := .value i type (Form.short x).spelling } := by
  rw [openToken_form_nil hf hx]
  exact shortCluster_waits st hf hx hk

theorem openToken_form_takes {x : Char} {raw : String} (hf : s.fields[i]? = some f)
    (hx : f.short = some x) (hk : f.kind = .valued type) (hraw : raw ≠ "") (st : State) :
    openToken s st ((Form.short x).spelling ++ raw) =
      supply st i type (Form.short x).spelling raw := by
  have hform := openToken_form hf hx st raw.toList
  rw [String.ofList_toList] at hform
  rw [hform]
  exact shortCluster_takes st hf hx hk hraw

theorem openToken_form_switch {x : Char} (hf : s.fields[i]? = some f) (hx : f.short = some x)
    (hk : f.kind.isSwitch = true) (st : State) :
    openToken s st (Form.short x).spelling = .ok (switch st i f.kind) := by
  rw [openToken_form_nil hf hx, shortCluster_switch st [] hf hx hk, shortCluster]

theorem openToken_long_switch {l : String} (hf : s.fields[i]? = some f) (hl : f.long = some l)
    (hk : f.kind.isSwitch = true) (st : State) :
    openToken s st (Form.long l).spelling = .ok (switch st i f.kind) := by
  have hne := longName_ne_empty (longName_of_mem (List.mem_of_getElem? hf) hl)
  rw [Form.spelling, openToken_long s st hne]
  exact longOption_switch st hf hl hk

/-- A switch at the front of a cluster can be typed in a token of its own. -/
theorem run_cluster_switch {x : Char} {r : String} (hf : s.fields[i]? = some f)
    (hx : f.short = some x) (hk : f.kind.isSwitch = true) (hr : r ≠ "")
    (hdash : isSeparateValue r = true) {st : State} (hst : st.mode = .options) :
    run s st [(Form.short x).spelling ++ r] = run s st [(Form.short x).spelling, "-" ++ r] := by
  have hmode : (switch st i f.kind).mode = .options := by rw [switch_mode, hst]
  have hhead : r.toList.head? ≠ some '-' := by simpa [isSeparateValue] using hdash
  have hne : r.toList ≠ [] := by simpa using hr
  have hwhole := openToken_form hf hx st r.toList
  have hrest := openToken_short s (switch st i f.kind) hne hhead
  rw [String.ofList_toList] at hwhole hrest
  rw [run_singleton, step_options hst, hwhole, shortCluster_switch st _ hf hx hk, run_cons,
    step_options hst, openToken_form_switch hf hx hk, Except.bind, run_singleton,
    step_options hmode, hrest]

/-- A value can stand in the token of its option or in the next one. -/
theorem run_attached {lead whole spelling v : String}
    (hwait : ∀ st : State, openToken s st lead = .ok { st with mode := .value i type spelling })
    (htake : ∀ st : State, openToken s st whole = supply st i type spelling v)
    (hv : isSeparateValue v = true) {st : State} (hst : st.mode = .options) :
    run s st [whole] = run s st [lead, v] := by
  rw [run_singleton, step_options hst, htake, run_cons, step_options hst, hwait, Except.bind,
    run_singleton, step_value, if_pos hv]

end Options

/-! ## Spellings -/

/-- The spellings of an option are interchangeable.  In front of the terminator of a
command line a switch can leave its cluster, and a value can be typed in the token of its
option or in the next one: the outcome is the same, whatever comes before and after.  The
short and the long form of a field lead to the same outcome too, except that an error about
the value of the option names the form that was typed. -/
theorem parse_interchange (s : Schema) {a : List String} (ha : "--" ∉ a) (b : List String) :
    (∀ x r, s.IsSwitch x → r ≠ "" → isSeparateValue r = true →
      s.parse (a ++ [(Form.short x).spelling ++ r] ++ b) =
        s.parse (a ++ [(Form.short x).spelling, "-" ++ r] ++ b)) ∧
    (∀ f ∈ s.fields, ∀ type x v, f.kind = .valued type → f.short = some x → v ≠ "" →
      isSeparateValue v = true →
      s.parse (a ++ [(Form.short x).spelling ++ v] ++ b) =
        s.parse (a ++ [(Form.short x).spelling, v] ++ b)) ∧
    (∀ f ∈ s.fields, ∀ type l v, f.kind = .valued type → f.long = some l →
      isSeparateValue v = true →
      s.parse (a ++ [(Form.long l).spelling ++ "=" ++ v] ++ b) =
        s.parse (a ++ [(Form.long l).spelling, v] ++ b)) ∧
    ∀ f ∈ s.fields, ∀ x l, f.short = some x → f.long = some l →
      (f.kind.isSwitch = true →
        s.parse (a ++ [(Form.short x).spelling] ++ b) =
          s.parse (a ++ [(Form.long l).spelling] ++ b)) ∧
      ∀ type, f.kind = .valued type →
        SameUpTo (Form.short x).spelling (Form.long l).spelling
          (s.parse (a ++ [(Form.short x).spelling] ++ b))
          (s.parse (a ++ [(Form.long l).spelling] ++ b)) ∧
        ∀ v, v ≠ "" →
          SameUpTo (Form.short x).spelling (Form.long l).spelling
            (s.parse (a ++ [(Form.short x).spelling ++ v] ++ b))
            (s.parse (a ++ [(Form.long l).spelling ++ "=" ++ v] ++ b)) := by
  have hdash : ∀ form : Form, isSeparateValue form.spelling = false := by
    intro form
    simpa using isSeparateValue_form form ""
  have hassign : ∀ l v, isSeparateValue ((Form.long l).spelling ++ "=" ++ v) = false := by
    intro l v
    simp [isSeparateValue, Form.spelling]
  refine ⟨?_, ?_, ?_, ?_⟩
  · rintro x r ⟨f, hf, hx, hk⟩ hr hv
    obtain ⟨i, hi⟩ := List.getElem?_of_mem hf
    exact parse_congr_run ha (isSeparateValue_form _ r) (hdash _)
      (fun st hst => run_cluster_switch hi hx hk hr hv hst) b
  · intro f hf type x v hk hx hne hv
    obtain ⟨i, hi⟩ := List.getElem?_of_mem hf
    exact parse_congr_run ha (isSeparateValue_form _ v) (hdash _)
      (fun st hst => run_attached (openToken_form_waits hi hx hk)
        (openToken_form_takes hi hx hk hne) hv hst) b
  · intro f hf type l v hk hl hv
    obtain ⟨i, hi⟩ := List.getElem?_of_mem hf
    exact parse_congr_run ha (hassign l v) (hdash _)
      (fun st hst => run_attached (fun st => openToken_long_waits st hi hl hk)
        (fun st => openToken_long_takes st v hi hl hk) hv hst) b
  · intro f hf x l hx hl
    obtain ⟨i, hi⟩ := List.getElem?_of_mem hf
    constructor
    · intro hk
      refine parse_congr_run ha (hdash _) (hdash _) (fun st hst => ?_) b
      rw [run_singleton, run_singleton, step_options hst, step_options hst,
        openToken_form_switch hi hx hk, openToken_long_switch hi hl hk]
    · intro type hk
      constructor
      · rw [List.append_assoc, List.append_assoc]
        refine parse_congr .same ha (hdash _) (hdash _) fun st hst => ?_
        exact sameUpTo_waits hst (openToken_form_waits hi hx hk st)
          (openToken_long_waits st hi hl hk) b
      · intro v hv
        rw [List.append_assoc, List.append_assoc]
        refine parse_congr .same ha (isSeparateValue_form _ v) (hassign l v) fun st hst => ?_
        exact sameUpTo_takes hst (openToken_form_takes hi hx hk hv st)
          (openToken_long_takes st v hi hl hk) b

theorem parse_interchange_copy :
    copyCommand.parse ["-v", "-vj4", "a"] = copyCommand.parse ["-v", "-v", "-j4", "a"] ∧
    copyCommand.parse ["-v", "--jobs=4", "a"] = copyCommand.parse ["-v", "--jobs", "4", "a"] ∧
    SameUpTo "-j" "--jobs" (copyCommand.parse ["-v", "-jx", "a"])
      (copyCommand.parse ["-v", "--jobs=x", "a"]) := by
  have hjobs : (Field.valued (some 'j') (some "jobs") .int).withDefault (.int 2) ∈
      copyCommand.fields := by decide
  have hverbose : copyCommand.IsSwitch 'v' := ⟨.counter (some 'v') none, by decide, rfl, rfl⟩
  obtain ⟨hcluster, -, hattached, hforms⟩ :=
    parse_interchange copyCommand (show "--" ∉ ["-v"] by decide) ["a"]
  obtain ⟨-, hvalued⟩ := hforms _ hjobs 'j' "jobs" rfl rfl
  exact ⟨hcluster 'v' "j4" hverbose (by decide) (by decide),
    hattached _ hjobs .int "jobs" "4" rfl rfl (by decide),
    (hvalued .int rfl).2 "x" (by decide)⟩

end CommandSchema
