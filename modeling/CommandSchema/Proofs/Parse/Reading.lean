import CommandSchema.Proofs.Parse.Line
import CommandSchema.Proofs.Schema.Lookup
import CommandSchema.Proofs.Schema.Name

/-!
# How the machine reads items

Between two items the state of the machine is a function of what has been read:
the positional tokens, and for each field the slot that the uses of its forms
determine.  Each lemma below follows the machine over one construct and finds it
in the state for one construct more.
-/

namespace CommandSchema

open Scan

/-- The state of the machine after positional tokens and uses of options. -/
def Scan.State.reached (s : Schema) (mode : Mode) (positionals : List String)
    (occs : List Occurrence) : State :=
  ⟨mode, positionals, s.fields.map fun f => f.slot occs⟩

/-! ## Slots -/

namespace Field

theorem answersTo_short {f : Field} {c : Char} (h : f.short = some c) :
    f.answersTo (.short c) = true := by
  simp [answersTo, matchesShort, h]

theorem answersTo_long {f : Field} {name : String} (h : f.long = some name) :
    f.answersTo (.long name) = true := by
  simp [answersTo, matchesLong, h]

theorem uses_append (f : Field) (occs occs' : List Occurrence) :
    f.uses (occs ++ occs') = f.uses occs ++ f.uses occs' := by
  simp [uses]

theorem uses_singleton (f : Field) (o : Occurrence) :
    f.uses [o] = if f.answersTo o.form = true then [o] else [] := by
  simp [uses, List.filter_cons]

theorem slot_append_of_not_answersTo {f : Field} {o : Occurrence} (occs : List Occurrence)
    (h : f.answersTo o.form = false) : f.slot (occs ++ [o]) = f.slot occs := by
  simp [slot, uses_append, uses_singleton, h]

theorem slot_append_flag {f : Field} {o : Occurrence} (occs : List Occurrence)
    (hk : f.kind = .flag) (h : f.answersTo o.form = true) :
    f.slot (occs ++ [o]) = some (.bool true) := by
  simp [slot, uses_append, uses_singleton, h, hk]

theorem slot_append_valued {f : Field} {form : Form} {type : ValueType}
    (occs : List Occurrence) (raw : String) (hk : f.kind = .valued type)
    (h : f.answersTo form = true) : f.slot (occs ++ [⟨form, some raw⟩]) = (type.convert raw).toOption := by
  simp [slot, uses_append, uses_singleton, h, hk]

/-- The count of a counter's slot, which is zero if the slot is empty. -/
theorem count_slot {f : Field} (occs : List Occurrence) (hk : f.kind = .counter) :
    ((f.slot occs).bind Value.count?).getD 0 =
      UInt32.ofNat (min (f.uses occs).length (2 ^ 32 - 1)) := by
  by_cases h : f.uses occs = []
  · simp [slot, hk, h]
  · simp [slot, hk, h, Value.count?]

theorem slot_append_counter {f : Field} {o : Occurrence} (occs : List Occurrence)
    (hk : f.kind = .counter) (h : f.answersTo o.form = true) :
    f.slot (occs ++ [o]) =
      some (.count (UInt32.ofNat (min ((f.uses occs).length + 1) (2 ^ 32 - 1)))) := by
  simp [slot, uses_append, uses_singleton, h, hk]

end Field

/-- One more occurrence, short of the largest number. -/
theorem saturating_succ (k : ℕ) :
    (if UInt32.ofNat (min k (2 ^ 32 - 1)) = 4294967295 then UInt32.ofNat (min k (2 ^ 32 - 1))
      else UInt32.ofNat (min k (2 ^ 32 - 1)) + 1) =
      UInt32.ofNat (min (k + 1) (2 ^ 32 - 1)) := by
  by_cases hk : k < 2 ^ 32 - 1
  · have hne : UInt32.ofNat (min k (2 ^ 32 - 1)) ≠ 4294967295 := by
      intro h
      have hnat := congrArg UInt32.toNat h
      simp at hnat
      omega
    rw [if_neg hne]
    apply UInt32.toNat_inj.mp
    simp
    omega
  · have hfull : min k (2 ^ 32 - 1) = 2 ^ 32 - 1 := by omega
    have hnext : min (k + 1) (2 ^ 32 - 1) = 2 ^ 32 - 1 := by omega
    rw [hfull, hnext]
    decide

theorem eq_of_answersTo (s : Schema) {form : Form} {f g : Field} (hf : f ∈ s.fields)
    (hg : g ∈ s.fields) (hform : f.answersTo form = true)
    (hform' : g.answersTo form = true) : f = g := by
  have hp : ∀ f g : Field, f.Compatible g → f.answersTo form = true →
      ¬g.answersTo form = true := by
    intro f g hfg hf hg
    cases form with
    | short c =>
        simp only [Field.answersTo, Field.matchesShort, beq_iff_eq] at hf hg
        exact hfg.short c hf hg
    | long name =>
        simp only [Field.answersTo, Field.matchesLong, beq_iff_eq] at hf hg
        exact hfg.long name hf hg
  exact s.eq_of_exclusive hp hf hg hform hform'

/-- Setting the slot of the field that answers to a form is what one more use of
the form does to all slots. -/
theorem map_slot_set (s : Schema) {i : ℕ} {f : Field} {o : Occurrence} {v : Value}
    (occs : List Occurrence) (hf : s.fields[i]? = some f) (hform : f.answersTo o.form = true)
    (hv : f.slot (occs ++ [o]) = some v) :
    (s.fields.map fun g => g.slot occs).set i (some v) =
      s.fields.map fun g => g.slot (occs ++ [o]) := by
  refine s.map_set hf hv fun g hg hne => ?_
  have hnot : g.answersTo o.form = false := by
    by_contra h
    exact hne (eq_of_answersTo s hg (List.mem_of_getElem? hf) (by simpa using h) hform)
  exact (Field.slot_append_of_not_answersTo occs hnot).symm

/-! ## Single options -/

section Options

variable {s : Schema} {i : ℕ} {f : Field} {form : Form}

theorem switch_reached (mode : Mode) (ps : List String) (occs : List Occurrence)
    (hf : s.fields[i]? = some f) (hform : f.answersTo form = true)
    (hk : f.kind.isSwitch = true) :
    switch (.reached s mode ps occs) i f.kind =
      .reached s mode ps (occs ++ [⟨form, none⟩]) := by
  have hslot : (State.reached s mode ps occs).slot i = f.slot occs := by
    simp [State.slot, State.reached, hf]
  cases hkind : f.kind with
  | flag =>
      have hv := Field.slot_append_flag (o := ⟨form, none⟩) occs hkind hform
      simpa [switch, State.bind, State.reached] using map_slot_set s occs hf hform hv
  | counter =>
      have hv := Field.slot_append_counter (o := ⟨form, none⟩) occs hkind hform
      have hset := map_slot_set s occs hf hform hv
      simp only [switch, State.increment, hslot, Field.count_slot occs hkind, saturating_succ]
      simpa [State.bind, State.reached] using hset
  | valued type => simp [hkind, FieldKind.isSwitch] at hk
  | positional type => simp [hkind, FieldKind.isSwitch] at hk
  | positionalList => simp [hkind, FieldKind.isSwitch] at hk

theorem supply_reached_ok {type : ValueType} {raw : String} {v : Value} (mode : Mode)
    (ps : List String) (occs : List Occurrence) (spelling : String)
    (hf : s.fields[i]? = some f) (hform : f.answersTo form = true)
    (hk : f.kind = .valued type) (hv : type.convert raw = .ok v) :
    supply (.reached s mode ps occs) i type spelling raw =
      .ok (.reached s .options ps (occs ++ [⟨form, some raw⟩])) := by
  have hslot := Field.slot_append_valued occs raw hk hform
  rw [hv] at hslot
  have hset := map_slot_set s occs hf hform hslot
  simp only [supply, convertFor, hv]
  simpa [State.bind, State.reached, bind, Except.bind, pure, Except.pure] using hset

theorem supply_error {type : ValueType} {raw : String} {r : Text.IntegerFault} (st : State)
    (spelling : String) (hv : type.convert raw = .error r) :
    supply st i type spelling raw = .error (.invalidValue spelling raw r) := by
  simp [supply, convertFor, hv, bind, Except.bind]

end Options

/-! ## Tokens -/

theorem splitAssignment_of_not_mem {name : List Char} (h : '=' ∉ name) :
    splitAssignment name = (name, none) := by
  induction name with
  | nil => rfl
  | cons c cs ih =>
      rw [List.mem_cons, not_or] at h
      rw [splitAssignment, ih h.2]
      exact fun hc => h.1 hc.symm

theorem splitAssignment_append {name : List Char} (value : List Char) (h : '=' ∉ name) :
    splitAssignment (name ++ '=' :: value) = (name, some value) := by
  induction name with
  | nil => rfl
  | cons c cs ih =>
      rw [List.mem_cons, not_or] at h
      rw [List.cons_append, splitAssignment, ih h.2]
      exact fun hc => h.1 hc.symm

theorem openToken_long (s : Schema) (st : State) {body : String} (h : body ≠ "") :
    openToken s st ("--" ++ body) = longOption s st body.toList := by
  cases hbody : body.toList with
  | nil => exact absurd (String.toList_eq_nil_iff.mp hbody) h
  | cons c cs => simp [openToken, hbody]

theorem openToken_assignment (s : Schema) (st : State) (name value : String) :
    openToken s st ("--" ++ name ++ "=" ++ value) =
      longOption s st (name.toList ++ '=' :: value.toList) := by
  have hne : name ++ "=" ++ value ≠ "" := by
    intro h
    have hnil := congrArg String.toList h
    simp at hnil
  have hbody := openToken_long s st hne
  rw [← String.append_assoc, ← String.append_assoc] at hbody
  simpa using hbody

theorem openToken_short (s : Schema) (st : State) {body : List Char} (h : body ≠ [])
    (hdash : body.head? ≠ some '-') :
    openToken s st ("-" ++ String.ofList body) = shortCluster s st body := by
  cases body with
  | nil => exact absurd rfl h
  | cons c cs =>
      have hc : c ≠ '-' := by simpa using hdash
      simp [openToken, hc]

theorem openToken_plain (s : Schema) (st : State) {token : String}
    (h : token = "-" ∨ isSeparateValue token = true) :
    openToken s st token = .ok (st.push token) := by
  rcases h with rfl | h
  · simp [openToken]
  · unfold openToken
    split <;> simp_all [isSeparateValue]

/-! ## Clusters -/

theorem isSwitch_iff (s : Schema) (c : Char) :
    s.IsSwitch c ↔ ∃ i f, s.resolveShort c = some (i, f) ∧ f.kind.isSwitch = true := by
  constructor
  · rintro ⟨f, hf, hc, hk⟩
    obtain ⟨i, hi⟩ := List.getElem?_of_mem hf
    exact ⟨i, f, s.resolveShort_eq_some_iff.mpr ⟨hi, hc⟩, hk⟩
  · rintro ⟨i, f, h, hk⟩
    obtain ⟨hi, hc⟩ := s.resolveShort_eq_some_iff.mp h
    exact ⟨f, List.mem_of_getElem? hi, hc, hk⟩

theorem Schema.IsSwitch.ne_dash {s : Schema} {c : Char} (h : s.IsSwitch c) : c ≠ '-' := by
  obtain ⟨f, hf, hc, -⟩ := h
  exact ne_dash_of_isShortName ((s.wellFormed hf).short c hc)

theorem shortCluster_switch {s : Schema} {c : Char} {i : ℕ} {f : Field} (st : State)
    (cs : List Char) (hf : s.fields[i]? = some f) (hc : f.short = some c)
    (hk : f.kind.isSwitch = true) :
    shortCluster s st (c :: cs) = shortCluster s (switch st i f.kind) cs := by
  have hresolve := s.resolveShort_eq_some_iff.mpr ⟨hf, hc⟩
  rw [shortCluster, hresolve]
  cases hkind : f.kind <;> simp [hkind, FieldKind.isSwitch] at hk ⊢

/-- The machine passes over the switches at the front of a cluster. -/
theorem shortCluster_switches (s : Schema) (mode : Mode) (ps : List String)
    (rest : List Char) {cs : List Char} (hcs : ∀ c ∈ cs, s.IsSwitch c)
    (occs : List Occurrence) :
    shortCluster s (.reached s mode ps occs) (cs ++ rest) =
      shortCluster s (.reached s mode ps (occs ++ cs.map fun c => ⟨.short c, none⟩)) rest := by
  induction cs generalizing occs with
  | nil => simp
  | cons c cs ih =>
      obtain ⟨hc, hcs⟩ := List.forall_mem_cons.mp hcs
      obtain ⟨i, f, hresolve, hk⟩ := (isSwitch_iff s c).mp hc
      obtain ⟨hf, hshort⟩ := s.resolveShort_eq_some_iff.mp hresolve
      have hform : f.answersTo (.short c) = true :=
        Field.answersTo_short hshort
      have hswitch := switch_reached mode ps occs hf hform hk
      rw [List.cons_append, shortCluster_switch _ _ hf hshort hk, hswitch, ih hcs]
      simp

/-- An option with a value at the end of a cluster waits for the next token. -/
theorem shortCluster_waits {s : Schema} {c : Char} {i : ℕ} {f : Field} {type : ValueType}
    (st : State) (hf : s.fields[i]? = some f) (hc : f.short = some c)
    (hk : f.kind = .valued type) :
    shortCluster s st [c] =
      .ok { st with mode := .value i type (Form.short c).spelling } := by
  have hresolve := s.resolveShort_eq_some_iff.mpr ⟨hf, hc⟩
  simp [shortCluster, hresolve, hk, Form.spelling]

/-- An option with a value takes the rest of its cluster. -/
theorem shortCluster_takes {s : Schema} {c : Char} {i : ℕ} {f : Field} {type : ValueType}
    (st : State) {raw : String} (hf : s.fields[i]? = some f) (hc : f.short = some c)
    (hk : f.kind = .valued type) (hraw : raw ≠ "") :
    shortCluster s st (c :: raw.toList) =
      supply st i type (Form.short c).spelling raw := by
  have hresolve := s.resolveShort_eq_some_iff.mpr ⟨hf, hc⟩
  simp [shortCluster, hresolve, hk, Form.spelling, hraw]

/-! ## Long options -/

section Long

variable {s : Schema} {name : String} {i : ℕ} {f : Field}

theorem longName_of_mem (hf : f ∈ s.fields) (hname : f.long = some name) :
    isLongName name = true :=
  (s.wellFormed hf).long name hname

theorem longOption_switch (st : State) (hf : s.fields[i]? = some f)
    (hname : f.long = some name) (hk : f.kind.isSwitch = true) :
    longOption s st name.toList = .ok (switch st i f.kind) := by
  have hresolve := s.resolveLong_eq_some_iff.mpr ⟨hf, hname⟩
  have hno := equals_not_mem_longName (longName_of_mem (List.mem_of_getElem? hf) hname)
  simp only [longOption, splitAssignment_of_not_mem hno, String.ofList_toList, hresolve]
  cases hkind : f.kind <;> simp [hkind, FieldKind.isSwitch] at hk ⊢

theorem longOption_waits {type : ValueType} (st : State) (hf : s.fields[i]? = some f)
    (hname : f.long = some name) (hk : f.kind = .valued type) :
    longOption s st name.toList =
      .ok { st with mode := .value i type (Form.long name).spelling } := by
  have hresolve := s.resolveLong_eq_some_iff.mpr ⟨hf, hname⟩
  have hno := equals_not_mem_longName (longName_of_mem (List.mem_of_getElem? hf) hname)
  simp [longOption, splitAssignment_of_not_mem hno, hresolve, hk, Form.spelling]

theorem longOption_takes {type : ValueType} (st : State) (raw : String)
    (hf : s.fields[i]? = some f) (hname : f.long = some name) (hk : f.kind = .valued type) :
    longOption s st (name.toList ++ '=' :: raw.toList) =
      supply st i type (Form.long name).spelling raw := by
  have hresolve := s.resolveLong_eq_some_iff.mpr ⟨hf, hname⟩
  have hno := equals_not_mem_longName (longName_of_mem (List.mem_of_getElem? hf) hname)
  simp [longOption, splitAssignment_append _ hno, hresolve, hk, Form.spelling]

end Long

/-! ## Runs -/

section Runs

variable {s : Schema} {st : State}

theorem run_cons (token : String) (tokens : List String) :
    run s st (token :: tokens) = (step s st token).bind fun st' => run s st' tokens :=
  rfl

theorem run_append (tokens tokens' : List String) :
    run s st (tokens ++ tokens') = (run s st tokens).bind fun st' => run s st' tokens' := by
  simp [run, bind]

theorem run_singleton (token : String) : run s st [token] = step s st token := by
  rw [run_cons]
  cases step s st token <;> rfl

theorem step_options (hst : st.mode = .options) (token : String) :
    step s st token = openToken s st token := by
  simp [step, hst]

theorem step_value (i : ℕ) (type : ValueType) (spelling token : String) :
    step s { st with mode := .value i type spelling } token =
      if isSeparateValue token = true then supply st i type spelling token
      else .error (.missingValue spelling) :=
  rfl

/-- However the value of an option is written, the machine comes to supply it. -/
theorem run_supply {st' : State} {lead mark spelling : String} {i : ℕ} {type : ValueType}
    {given : Supply} (hst : st.mode = .options)
    (hwait : openToken s st lead = .ok { st' with mode := .value i type spelling })
    (htake : ∀ raw, given = .attached raw →
      openToken s st (lead ++ mark ++ raw) = supply st' i type spelling raw)
    (hsep : ∀ v, given = .separate v → isSeparateValue v = true) :
    run s st (given.tokens lead mark) = supply st' i type spelling given.value := by
  cases given with
  | attached raw =>
      rw [Supply.tokens, run_singleton, step_options hst]
      exact htake raw rfl
  | separate raw =>
      rw [Supply.tokens, run_cons, step_options hst, hwait, Except.bind, run_singleton,
        step_value, if_pos (hsep raw rfl)]
      rfl

end Runs

section Items

variable {s : Schema}

/-- The token of a cluster that ends in an option with a value, whether the
value follows in the token or not, is read as a cluster. -/
theorem openToken_cluster {cs : List Char} {c : Char} {i : ℕ} {f : Field} (st : State)
    (rest : List Char) (hcs : ∀ c ∈ cs, s.IsSwitch c) (hf : s.fields[i]? = some f)
    (hc : f.short = some c) :
    openToken s st ("-" ++ String.ofList (cs ++ c :: rest)) =
      shortCluster s st (cs ++ c :: rest) := by
  have hhead : (cs ++ c :: rest).head? ≠ some '-' := by
    cases cs with
    | nil =>
        have hname := (s.wellFormed (List.mem_of_getElem? hf)).short c hc
        simpa using ne_dash_of_isShortName hname
    | cons d ds => simpa using (hcs d List.mem_cons_self).ne_dash
  exact openToken_short s st (by simp) hhead

theorem openToken_cluster_waits {cs : List Char} {c : Char} {i : ℕ} {f : Field}
    {type : ValueType} (ps : List String) (occs : List Occurrence)
    (hcs : ∀ c ∈ cs, s.IsSwitch c) (hf : s.fields[i]? = some f) (hc : f.short = some c)
    (hk : f.kind = .valued type) :
    openToken s (.reached s .options ps occs) ("-" ++ String.ofList (cs ++ [c])) =
      .ok { State.reached s .options ps (occs ++ cs.map fun c => ⟨.short c, none⟩) with
        mode := .value i type (Form.short c).spelling } := by
  rw [openToken_cluster _ _ hcs hf hc, shortCluster_switches s _ _ _ hcs]
  exact shortCluster_waits _ hf hc hk

theorem openToken_cluster_takes {cs : List Char} {c : Char} {i : ℕ} {f : Field}
    {type : ValueType} {raw : String} (ps : List String) (occs : List Occurrence)
    (hcs : ∀ c ∈ cs, s.IsSwitch c) (hf : s.fields[i]? = some f) (hc : f.short = some c)
    (hk : f.kind = .valued type) (hraw : raw ≠ "") :
    openToken s (.reached s .options ps occs)
        ("-" ++ String.ofList (cs ++ [c]) ++ "" ++ raw) =
      supply (.reached s .options ps (occs ++ cs.map fun c => ⟨.short c, none⟩)) i type
        (Form.short c).spelling raw := by
  have htoken : "-" ++ String.ofList (cs ++ [c]) ++ "" ++ raw =
      "-" ++ String.ofList (cs ++ c :: raw.toList) := by
    apply String.toList_inj.mp
    simp
  rw [htoken, openToken_cluster _ _ hcs hf hc, shortCluster_switches s _ _ _ hcs]
  exact shortCluster_takes _ hf hc hk hraw

theorem openToken_long_waits {name : String} {i : ℕ} {f : Field} {type : ValueType}
    (st : State) (hf : s.fields[i]? = some f) (hname : f.long = some name)
    (hk : f.kind = .valued type) :
    openToken s st ("--" ++ name) =
      .ok { st with mode := .value i type (Form.long name).spelling } := by
  rw [openToken_long s st (longName_ne_empty (longName_of_mem (List.mem_of_getElem? hf) hname))]
  exact longOption_waits st hf hname hk

theorem openToken_long_takes {name : String} {i : ℕ} {f : Field} {type : ValueType}
    (st : State) (raw : String) (hf : s.fields[i]? = some f) (hname : f.long = some name)
    (hk : f.kind = .valued type) :
    openToken s st ("--" ++ name ++ "=" ++ raw) =
      supply st i type (Form.long name).spelling raw := by
  rw [openToken_assignment]
  exact longOption_takes st raw hf hname hk

/-- Reading an item adds what the item says, and nothing else. -/
theorem run_item {item : Item} (h : item.Valid s) (ps : List String)
    (occs : List Occurrence) :
    run s (.reached s .options ps occs) item.tokens =
      .ok (.reached s .options (ps ++ item.positionals) (occs ++ item.occurrences)) := by
  cases h with
  | positional plain =>
      rw [Item.tokens, run_singleton, step_options rfl, openToken_plain s _ plain]
      simp [State.push, State.reached, Item.positionals, Item.occurrences]
  | @longSwitch name f mem form kind =>
      obtain ⟨i, hf⟩ := List.getElem?_of_mem mem
      have hform : f.answersTo (.long name) = true :=
        Field.answersTo_long form
      rw [Item.tokens, run_singleton, step_options rfl,
        openToken_long s _ (longName_ne_empty (longName_of_mem mem form)),
        longOption_switch _ hf form kind, switch_reached _ _ _ hf hform kind]
      simp [Item.positionals, Item.occurrences]
  | @longValue name given f type mem form kind fits =>
      obtain ⟨i, hf⟩ := List.getElem?_of_mem mem
      obtain ⟨v, hv⟩ := fits.converts
      have hform : f.answersTo (.long name) = true :=
        Field.answersTo_long form
      rw [Item.tokens, run_supply rfl (openToken_long_waits _ hf form kind)
          (fun raw _ => openToken_long_takes _ raw hf form kind) fits.separate,
        supply_reached_ok _ _ _ _ hf hform kind hv]
      simp [Item.positionals, Item.occurrences]
  | @cluster cs nonempty switches =>
      have hhead : cs.head? ≠ some '-' := by
        intro h
        exact (switches '-' (List.mem_of_mem_head? h)).ne_dash rfl
      have hcluster := shortCluster_switches s .options ps [] switches occs
      rw [List.append_nil] at hcluster
      rw [Item.tokens, run_singleton, step_options rfl,
        openToken_short s _ nonempty hhead, hcluster, shortCluster]
      simp [Item.positionals, Item.occurrences]
  | @clusterValue cs c given f type switches mem form kind fits nonempty =>
      obtain ⟨i, hf⟩ := List.getElem?_of_mem mem
      obtain ⟨v, hv⟩ := fits.converts
      have hform : f.answersTo (.short c) = true :=
        Field.answersTo_short form
      rw [Item.tokens, run_supply rfl (openToken_cluster_waits ps occs switches hf form kind)
          (fun raw hraw => openToken_cluster_takes ps occs switches hf form kind
            fun h => nonempty (by rw [hraw, h])) fits.separate,
        supply_reached_ok _ _ _ _ hf hform kind hv]
      simp [Item.positionals, Item.occurrences]

theorem run_items {items : List Item} (h : ∀ item ∈ items, item.Valid s)
    (ps : List String) (occs : List Occurrence) :
    run s (.reached s .options ps occs) (items.flatMap Item.tokens) =
      .ok (.reached s .options (ps ++ items.flatMap Item.positionals)
        (occs ++ items.flatMap Item.occurrences)) := by
  induction items generalizing ps occs with
  | nil => simp [run, pure, Except.pure]
  | cons item items ih =>
      obtain ⟨hitem, hitems⟩ := List.forall_mem_cons.mp h
      rw [List.flatMap_cons, run_append, run_item hitem, Except.bind, ih hitems]
      simp

/-- Behind the terminator every token is positional. -/
theorem run_positionals (tokens ps : List String) (occs : List Occurrence) :
    run s (.reached s .positionals ps occs) tokens =
      .ok (.reached s .positionals (ps ++ tokens) occs) := by
  induction tokens generalizing ps with
  | nil => simp [run, pure, Except.pure]
  | cons token tokens ih =>
      have hstep : step s (.reached s .positionals ps occs) token =
          .ok (.reached s .positionals (ps ++ [token]) occs) := rfl
      rw [run_cons, hstep, Except.bind, ih]
      simp

theorem start_eq_reached : State.start s.size = .reached s .options [] [] := by
  have hslot : ∀ f : Field, f.slot [] = none := by
    intro f
    cases hk : f.kind <;> simp [Field.slot, Field.uses, hk]
  simp [State.start, State.reached, hslot, Schema.size, List.map_const']

theorem scan_eq_bind (tokens : List String) :
    scan s tokens = (run s (.reached s .options [] []) tokens).bind finish := by
  rw [scan, start_eq_reached]
  rfl

/-- The machine accepts a line that makes sense and ends in its outcome. -/
theorem scan_line {line : Line} (h : line.Valid s) :
    scan s line.tokens = .ok (line.outcome s) := by
  have hitems := run_items h [] []
  obtain ⟨items, tail⟩ := line
  rw [scan_eq_bind, Line.tokens, run_append, hitems]
  cases tail with
  | none =>
      simp [Line.tailTokens, run, Except.bind, pure, Except.pure, finish, State.reached,
        Line.outcome, Line.positionals, Line.occurrences]
  | some tokens =>
      have hterminator : ∀ ps occs, step s (.reached s .options ps occs) "--" =
          .ok (.reached s .positionals ps occs) := fun _ _ => rfl
      rw [Except.bind, Line.tailTokens, run_cons, hterminator, Except.bind, run_positionals]
      rfl

end Items

end CommandSchema
