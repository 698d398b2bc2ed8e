import CommandSchema.Proofs.Parse.Stuck

/-!
# Splitting a command line

Any tokens split into complete items followed by nothing, by the terminator, or by
tokens that are stuck; and they split in one way only.  Existence follows the
first token, uniqueness compares two items that begin the same tokens.
-/

namespace CommandSchema

open Scan

/-! ## Every list of tokens splits -/

/-- The tokens begin with an item, or they are stuck. -/
def BeginsOrSticks (s : Schema) (tokens : List String) : Prop :=
  (∃ item rest, Item.Valid s item ∧ tokens = item.tokens ++ rest) ∨ ∃ e, Stuck s tokens e

theorem lacksValue_or_exists (tokens : List String) :
    LacksValue tokens ∨ ∃ v rest, tokens = v :: rest ∧ isSeparateValue v = true := by
  cases tokens with
  | nil => exact Or.inl fun token h => by simp at h
  | cons v rest =>
      cases hv : isSeparateValue v with
      | false =>
          refine Or.inl fun token h => ?_
          obtain rfl : v = token := by simpa using h
          exact hv
      | true => exact Or.inr ⟨v, rest, rfl, hv⟩

theorem isSwitch_or_valued {f : Field} (hpos : f.kind.isPositional = false) :
    f.kind.isSwitch = true ∨ ∃ type, f.kind = .valued type := by
  cases hk : f.kind with
  | flag => exact Or.inl rfl
  | counter => exact Or.inl rfl
  | valued type => exact Or.inr ⟨type, rfl⟩
  | positional type => simp [hk, FieldKind.isPositional] at hpos
  | positionalList => simp [hk, FieldKind.isPositional] at hpos

theorem exists_assignment (body : String) :
    ∃ name attached, '=' ∉ name.toList ∧ "--" ++ body = longToken name attached ∧
      (body ≠ "" → name = "" → attached ≠ none) := by
  by_cases h : '=' ∈ body.toList
  · obtain ⟨name, value, hbody, hname⟩ := List.eq_append_cons_of_mem h
    refine ⟨String.ofList name, some (String.ofList value), by simpa using hname, ?_, ?_⟩
    · apply String.toList_inj.mp
      simp [longToken, hbody]
    · simp
  · exact ⟨body, none, h, rfl, fun hne hempty => absurd hempty hne⟩

theorem long_beginsOrSticks (s : Schema) {body : String} (hbody : body ≠ "")
    (rest : List String) : BeginsOrSticks s (("--" ++ body) :: rest) := by
  obtain ⟨name, attached, equals, htoken, hproper⟩ := exists_assignment body
  rw [htoken]
  by_cases hform : ∃ f ∈ s.fields, f.long = some name
  · obtain ⟨f, mem, form⟩ := hform
    rcases isSwitch_or_valued (s.isPositional_eq_false_of_long mem form) with
      kind | ⟨type, kind⟩
    · cases attached with
      | none => exact Or.inl ⟨.long name none, rest, .longSwitch mem form kind, rfl⟩
      | some value => exact Or.inr ⟨_, .unexpectedValue mem form kind⟩
    · cases attached with
      | none =>
          rcases lacksValue_or_exists rest with lacks | ⟨v, more, rfl, separate⟩
          · exact Or.inr ⟨_, .longMissing mem form kind lacks⟩
          · cases hv : type.convert v with
            | ok value =>
                exact Or.inl ⟨.long name (some (.separate v)), more,
                  .longValue mem form kind ⟨by simpa using separate, value, hv⟩, rfl⟩
            | error reason =>
                have hstuck : Stuck s ((Item.long name (some (.separate v))).tokens ++ more) _ :=
                  .longInvalid mem form kind (by simpa using separate) hv
                exact Or.inr ⟨_, hstuck⟩
      | some v =>
          cases hv : type.convert v with
          | ok value =>
              exact Or.inl ⟨.long name (some (.attached v)), rest,
                .longValue mem form kind ⟨by simp, value, hv⟩, rfl⟩
          | error reason =>
              have hstuck : Stuck s ((Item.long name (some (.attached v))).tokens ++ rest) _ :=
                .longInvalid mem form kind (by simp) hv
              exact Or.inr ⟨_, hstuck⟩
  · exact Or.inr ⟨_, .unknownLong (hproper hbody) equals
      fun f mem form => hform ⟨f, mem, form⟩⟩

/-- The switches at the front of a cluster, as many as there are. -/
theorem exists_switches (s : Schema) (cs : List Char) :
    ∃ front back, cs = front ++ back ∧ (∀ c ∈ front, s.IsSwitch c) ∧
      ∀ c more, back = c :: more → ¬s.IsSwitch c := by
  induction cs with
  | nil => exact ⟨[], [], rfl, by simp, by simp⟩
  | cons c cs ih =>
      by_cases hc : s.IsSwitch c
      · obtain ⟨front, back, rfl, hfront, hback⟩ := ih
        exact ⟨c :: front, back, rfl, List.forall_mem_cons.mpr ⟨hc, hfront⟩, hback⟩
      · refine ⟨[], c :: cs, rfl, by simp, ?_⟩
        intro d more h
        rwa [← (List.cons.inj h).1]

theorem cluster_beginsOrSticks (s : Schema) {cs : List Char} (hne : cs ≠ [])
    (hdash : cs.head? ≠ some '-') (rest : List String) :
    BeginsOrSticks s (("-" ++ String.ofList cs) :: rest) := by
  obtain ⟨front, back, rfl, switches, hback⟩ := exists_switches s cs
  cases back with
  | nil =>
      rw [List.append_nil] at hne ⊢
      exact Or.inl ⟨.short front none, rest, .cluster hne switches, rfl⟩
  | cons c more =>
      by_cases hform : ∃ f ∈ s.fields, f.short = some c
      · obtain ⟨f, mem, form⟩ := hform
        obtain kind | ⟨type, kind⟩ :=
          isSwitch_or_valued (s.isPositional_eq_false_of_short mem form)
        · exact absurd ⟨f, mem, form, kind⟩ (hback c more rfl)
        by_cases hmore : more = []
        · subst more
          rcases lacksValue_or_exists rest with lacks | ⟨v, rest, rfl, separate⟩
          · exact Or.inr ⟨_, .shortMissing switches mem form kind lacks⟩
          · cases hv : type.convert v with
            | ok value =>
                exact Or.inl ⟨.short front (some (c, .separate v)), rest,
                  .clusterValue switches mem form kind ⟨by simpa using separate, value, hv⟩
                    (by simp), rfl⟩
            | error reason =>
                have hstuck :
                    Stuck s ((Item.short front (some (c, .separate v))).tokens ++ rest) _ :=
                  .shortInvalid switches mem form kind (by simpa using separate) (by simp) hv
                exact Or.inr ⟨_, hstuck⟩
        · have htoken : "-" ++ String.ofList (front ++ c :: more) =
              "-" ++ String.ofList (front ++ [c]) ++ "" ++ String.ofList more := by
            apply String.toList_inj.mp
            simp
          have nonempty : Supply.attached (String.ofList more) ≠ .attached "" := by
            simpa using hmore
          rw [htoken]
          cases hv : type.convert (String.ofList more) with
          | ok value =>
              exact Or.inl ⟨.short front (some (c, .attached (String.ofList more))), rest,
                .clusterValue switches mem form kind ⟨by simp, value, hv⟩ nonempty, rfl⟩
          | error reason =>
              have hstuck : Stuck s
                  ((Item.short front (some (c, .attached (String.ofList more)))).tokens ++ rest) _ :=
                .shortInvalid switches mem form kind (by simp) nonempty hv
              exact Or.inr ⟨_, hstuck⟩
      · refine Or.inr ⟨_, .unknownShort (fun hfront => ?_) switches
          fun f mem form => hform ⟨f, mem, form⟩⟩
        subst front
        simpa using hdash

/-- The first token decides how tokens begin. -/
theorem beginsOrSticks_cons (s : Schema) (token : String) (rest : List String) :
    token = "--" ∨ BeginsOrSticks s (token :: rest) := by
  have hplain : isSeparateValue token = true → BeginsOrSticks s (token :: rest) := fun h =>
    Or.inl ⟨.positional token, rest, .positional (Or.inr h), rfl⟩
  cases htoken : token.toList with
  | nil => exact Or.inr (hplain (by simp [isSeparateValue, htoken]))
  | cons c cs =>
      by_cases hc : c = '-'
      · subst c
        have hshort : token = "-" ++ String.ofList cs := by
          apply String.toList_inj.mp
          simp [htoken]
        cases cs with
        | nil =>
            exact Or.inr (Or.inl ⟨.positional token, rest, .positional (Or.inl hshort), rfl⟩)
        | cons d body =>
            by_cases hd : d = '-'
            · subst d
              have hlong : token = "--" ++ String.ofList body := by
                apply String.toList_inj.mp
                simp [htoken]
              by_cases hbody : body = []
              · exact Or.inl (by rw [hlong, hbody]; rfl)
              · rw [hlong]
                exact Or.inr (long_beginsOrSticks s (by simpa using hbody) rest)
            · rw [hshort]
              exact Or.inr (cluster_beginsOrSticks s (by simp) (by simpa using hd) rest)
      · exact Or.inr (hplain (by simpa [isSeparateValue, htoken] using hc))

/-- Any tokens are a line that makes sense, or they get stuck after complete
items. -/
theorem line_or_stuck (s : Schema) (tokens : List String) :
    (∃ line : Line, line.Valid s ∧ line.tokens = tokens) ∨
      ∃ (items : List Item) (rest : List String) (e : ParseError),
        (∀ item ∈ items, item.Valid s) ∧ tokens = items.flatMap Item.tokens ++ rest ∧ Stuck s rest e := by
  induction hn : tokens.length using Nat.strongRecOn generalizing tokens with
  | ind n ih =>
    cases tokens with
    | nil => exact Or.inl ⟨⟨[], none⟩, by simp [Line.Valid], rfl⟩
    | cons token rest =>
        rcases beginsOrSticks_cons s token rest with
          rfl | ⟨item, more, hitem, htokens⟩ | ⟨e, hstuck⟩
        · exact Or.inl ⟨⟨[], some rest⟩, by simp [Line.Valid], rfl⟩
        · have hshorter : more.length < n := by
            have hlength := congrArg List.length htokens
            have hpos := List.length_pos_iff.mpr item.tokens_ne_nil
            rw [List.length_append] at hlength
            omega
          rcases ih more.length hshorter more rfl with
            ⟨line, hline, hmore⟩ | ⟨items, stuck, e, hitems, hmore, hstuck⟩
          · refine Or.inl ⟨⟨item :: line.items, line.tail⟩, ?_, ?_⟩
            · exact List.forall_mem_cons.mpr ⟨hitem, hline⟩
            · rw [htokens, ← hmore]
              simp [Line.tokens]
          · refine Or.inr ⟨item :: items, stuck, e, ?_, ?_, hstuck⟩
            · exact List.forall_mem_cons.mpr ⟨hitem, hitems⟩
            · rw [htokens, hmore]
              simp
        · exact Or.inr ⟨[], token :: rest, e, by simp, rfl, hstuck⟩

/-! ## The split is unique -/

theorem isSwitch_ne_valued {s : Schema} {form : Form} {f g : Field} {type : ValueType}
    (hf : f ∈ s.fields) (hg : g ∈ s.fields) (hform : f.answersTo form = true)
    (hform' : g.answersTo form = true) (hswitch : f.kind.isSwitch = true) :
    g.kind ≠ .valued type := by
  intro hk
  rw [eq_of_answersTo s hf hg hform hform', hk] at hswitch
  simp [FieldKind.isSwitch] at hswitch

/-- A run of characters with a property, followed by nothing or by a character
without it, ends where the property does. -/
theorem append_inj_of_forall {p : Char → Prop} {front front' back back' : List Char}
    (h : front ++ back = front' ++ back') (hfront : ∀ c ∈ front, p c)
    (hfront' : ∀ c ∈ front', p c) (hback : ∀ c more, back = c :: more → ¬p c)
    (hback' : ∀ c more, back' = c :: more → ¬p c) : front = front' ∧ back = back' := by
  induction front generalizing front' with
  | nil =>
      cases front' with
      | nil => exact ⟨rfl, h⟩
      | cons c cs => exact absurd (hfront' c List.mem_cons_self) (hback c _ h)
  | cons c cs ih =>
      obtain ⟨hc, hcs⟩ := List.forall_mem_cons.mp hfront
      cases front' with
      | nil => exact absurd hc (hback' c _ h.symm)
      | cons d ds =>
          obtain ⟨rfl, htail⟩ := List.cons.inj h
          obtain ⟨-, hds⟩ := List.forall_mem_cons.mp hfront'
          obtain ⟨rfl, hrest⟩ := ih htail hcs hds
          exact ⟨rfl, hrest⟩

namespace Supply

/-- A value in its option's own token. -/
def attached? : Supply → Option String
  | attached v => some v
  | separate _ => none

/-- A value in a token of its own. -/
def separate? : Supply → Option String
  | attached _ => none
  | separate v => some v

/-- The text that an attached value adds to its token decides how a value is
supplied, since an empty text is not attached to a short form. -/
theorem attached?_eq_of_text {given given' : Supply} (hne : given ≠ .attached "")
    (hne' : given' ≠ .attached "")
    (h : (given.attached?.getD "").toList = (given'.attached?.getD "").toList) :
    given.attached? = given'.attached? := by
  have htext := String.toList_inj.mp h
  cases given with
  | attached v =>
      cases given' with
      | attached w => exact congrArg some htext
      | separate w => exact absurd (congrArg attached htext) hne
  | separate v =>
      cases given' with
      | attached w => exact absurd (congrArg attached htext.symm) hne'
      | separate w => rfl

theorem eq_of_attached?_eq {given given' : Supply} {rest rest' : List String}
    (h : given.attached? = given'.attached?)
    (hrest : given.separate?.toList ++ rest = given'.separate?.toList ++ rest') :
    given = given' ∧ rest = rest' := by
  cases given with
  | attached v =>
      cases given' with
      | attached w => exact ⟨congrArg attached (Option.some.inj h), hrest⟩
      | separate w => cases h
  | separate v =>
      cases given' with
      | attached w => cases h
      | separate w =>
          obtain ⟨rfl, htail⟩ := List.cons.inj hrest
          exact ⟨rfl, htail⟩

end Supply

/-- The option at the end of a cluster, with its attached value. -/
def clusterEnd : Option (Char × Supply) → List Char
  | none => []
  | some (c, given) => c :: (given.attached?.getD "").toList

theorem Item.tokens_long (name : String) (given : Option Supply) :
    (Item.long name given).tokens =
      longToken name (given.bind Supply.attached?) :: (given.bind Supply.separate?).toList := by
  rcases given with _ | _ | _ <;> rfl

theorem Item.tokens_short (cs : List Char) (last : Option (Char × Supply)) :
    (Item.short cs last).tokens =
      ("-" ++ String.ofList (cs ++ clusterEnd last)) ::
        (last.bind fun l => l.2.separate?).toList := by
  rcases last with _ | ⟨c, v | v⟩
  · simp [tokens, clusterEnd]
  · simp only [tokens, Supply.tokens, clusterEnd, Supply.attached?, Supply.separate?,
      Option.getD_some, Option.bind_some, Option.toList_none, List.cons.injEq, and_true]
    apply String.toList_inj.mp
    simp
  · simp [tokens, Supply.tokens, clusterEnd, Supply.attached?, Supply.separate?]

theorem longToken_inj {name name' : String} {attached attached' : Option String}
    (h : longToken name attached = longToken name' attached') (hname : '=' ∉ name.toList)
    (hname' : '=' ∉ name'.toList) : name = name' ∧ attached = attached' := by
  have hsplit : ∀ (name : String) (attached : Option String), '=' ∉ name.toList →
      splitAssignment ((longToken name attached).toList.drop 2) =
        (name.toList, attached.map String.toList) := by
    intro name attached hname
    cases attached with
    | none => simpa [longToken] using splitAssignment_of_not_mem hname
    | some v => simpa [longToken] using splitAssignment_append v.toList hname
  have heq := hsplit name attached hname
  rw [h, hsplit name' attached' hname'] at heq
  obtain ⟨hn, ha⟩ := Prod.mk.inj heq
  have hinj : Function.Injective (Option.map String.toList) :=
    Option.map_injective fun _ _ => String.toList_inj.mp
  exact ⟨String.toList_inj.mp hn.symm, (hinj ha).symm⟩

theorem Item.Valid.longName {s : Schema} {name : String} {given : Option Supply}
    (h : (Item.long name given).Valid s) : isLongName name = true := by
  cases h with
  | longSwitch mem form kind => exact longName_of_mem mem form
  | longValue mem form kind fits => exact longName_of_mem mem form

/-- The option at the end of a cluster is no switch. -/
theorem Item.Valid.clusterEnd_not_isSwitch {s : Schema} {cs : List Char}
    {last : Option (Char × Supply)} (h : (Item.short cs last).Valid s) :
    ∀ c more, clusterEnd last = c :: more → ¬s.IsSwitch c := by
  cases h with
  | cluster nonempty switches => simp [clusterEnd]
  | @clusterValue cs c given f type switches mem form kind fits nonempty =>
      rintro d more hd ⟨g, hg, hgform, hgkind⟩
      obtain ⟨rfl, -⟩ := List.cons.inj hd
      exact isSwitch_ne_valued hg mem
        (Field.answersTo_short hgform)
        (Field.answersTo_short form) hgkind kind

theorem Item.Valid.switches {s : Schema} {cs : List Char} {last : Option (Char × Supply)}
    (h : (Item.short cs last).Valid s) : ∀ c ∈ cs, s.IsSwitch c := by
  cases h with
  | cluster nonempty switches => exact switches
  | clusterValue switches mem form kind fits nonempty => exact switches

theorem Item.Valid.short_head {s : Schema} {cs : List Char} {last : Option (Char × Supply)}
    (h : (Item.short cs last).Valid s) :
    ∃ c more, cs ++ clusterEnd last = c :: more ∧ c ≠ '-' := by
  have switches := h.switches
  cases cs with
  | cons c cs => exact ⟨c, cs ++ clusterEnd last, rfl, (switches c List.mem_cons_self).ne_dash⟩
  | nil =>
      cases h with
      | cluster nonempty switches => exact absurd rfl nonempty
      | @clusterValue _ c given f type _ mem form kind fits nonempty =>
          exact ⟨c, _, rfl, ne_dash_of_isShortName ((s.wellFormed mem).short c form)⟩

/-- What the first characters of a token tell about an item. -/
inductive Shape
  | plain
  | cluster
  | long
  deriving DecidableEq, Repr

/-- The shape of a token. -/
def Shape.ofToken (token : String) : Shape :=
  match token.toList with
  | '-' :: '-' :: _ => .long
  | '-' :: _ :: _ => .cluster
  | _ => .plain

/-- The shape of an item's first token. -/
def Item.shape : Item → Shape
  | positional _ => .plain
  | long _ _ => .long
  | short _ _ => .cluster

theorem Item.Valid.shape_head {s : Schema} {item : Item} (h : item.Valid s) :
    ∃ token more, item.tokens = token :: more ∧ Shape.ofToken token = item.shape := by
  cases item with
  | positional token =>
      refine ⟨token, [], rfl, ?_⟩
      cases h with
      | positional plain =>
          rcases plain with rfl | plain
          · rfl
          · unfold Shape.ofToken
            split <;> simp_all [isSeparateValue, Item.shape]
  | long name given =>
      refine ⟨_, _, Item.tokens_long name given, ?_⟩
      cases given.bind Supply.attached? <;> simp [Shape.ofToken, longToken, Item.shape]
  | short cs last =>
      obtain ⟨c, more, hhead, hc⟩ := h.short_head
      refine ⟨_, _, Item.tokens_short cs last, ?_⟩
      simp [Shape.ofToken, Item.shape, hhead]

theorem Item.long_append_inj {s : Schema} {name name' : String} {given given' : Option Supply}
    {rest rest' : List String} (ha : (Item.long name given).Valid s)
    (hb : (Item.long name' given').Valid s)
    (h : (Item.long name given).tokens ++ rest = (Item.long name' given').tokens ++ rest') :
    Item.long name given = Item.long name' given' ∧ rest = rest' := by
  rw [tokens_long, tokens_long, List.cons_append, List.cons_append] at h
  obtain ⟨hhead, htail⟩ := List.cons.inj h
  obtain ⟨rfl, hattached⟩ := longToken_inj hhead (equals_not_mem_longName ha.longName)
    (equals_not_mem_longName hb.longName)
  cases ha with
  | longSwitch mem form kind =>
      cases hb with
      | longSwitch mem' form' kind' => exact ⟨rfl, htail⟩
      | longValue mem' form' kind' fits' =>
          exact absurd kind' (isSwitch_ne_valued mem mem'
            (Field.answersTo_long form)
            (Field.answersTo_long form') kind)
  | @longValue _ given f type mem form kind fits =>
      cases hb with
      | longSwitch mem' form' kind' =>
          exact absurd kind (isSwitch_ne_valued mem' mem
            (Field.answersTo_long form')
            (Field.answersTo_long form) kind')
      | @longValue _ given' f' type' mem' form' kind' fits' =>
          obtain ⟨rfl, hrest⟩ := Supply.eq_of_attached?_eq hattached htail
          exact ⟨rfl, hrest⟩

theorem Item.short_append_inj {s : Schema} {cs cs' : List Char}
    {last last' : Option (Char × Supply)} {rest rest' : List String}
    (ha : (Item.short cs last).Valid s) (hb : (Item.short cs' last').Valid s)
    (h : (Item.short cs last).tokens ++ rest = (Item.short cs' last').tokens ++ rest') :
    Item.short cs last = Item.short cs' last' ∧ rest = rest' := by
  rw [tokens_short, tokens_short, List.cons_append, List.cons_append] at h
  obtain ⟨hhead, htail⟩ := List.cons.inj h
  have hchars : cs ++ clusterEnd last = cs' ++ clusterEnd last' := by
    simpa using congrArg String.toList hhead
  obtain ⟨rfl, hend⟩ := append_inj_of_forall hchars ha.switches hb.switches
    ha.clusterEnd_not_isSwitch hb.clusterEnd_not_isSwitch
  have hne : ∀ {c : Char} {given : Supply}, (Item.short cs (some (c, given))).Valid s →
      given ≠ .attached "" := by
    intro c given hvalid
    cases hvalid with
    | clusterValue switches mem form kind fits nonempty => exact nonempty
  cases last with
  | none =>
      cases last' with
      | none => exact ⟨rfl, htail⟩
      | some l' => cases hend
  | some l =>
      cases last' with
      | none => cases hend
      | some l' =>
          obtain ⟨c, given⟩ := l
          obtain ⟨c', given'⟩ := l'
          obtain ⟨rfl, htext⟩ := List.cons.inj hend
          obtain ⟨rfl, hrest⟩ := Supply.eq_of_attached?_eq
            (Supply.attached?_eq_of_text (hne ha) (hne hb) htext) htail
          exact ⟨rfl, hrest⟩

/-- Two items that begin the same tokens are the same item. -/
theorem Item.tokens_append_inj {s : Schema} {a b : Item} {rest rest' : List String}
    (ha : a.Valid s) (hb : b.Valid s) (h : a.tokens ++ rest = b.tokens ++ rest') :
    a = b ∧ rest = rest' := by
  have hshape : a.shape = b.shape := by
    obtain ⟨token, more, htokens, hshape⟩ := ha.shape_head
    obtain ⟨token', more', htokens', hshape'⟩ := hb.shape_head
    rw [htokens, htokens', List.cons_append, List.cons_append] at h
    rw [← hshape, ← hshape', (List.cons.inj h).1]
  cases a with
  | positional token =>
      cases b with
      | positional token' =>
          obtain ⟨rfl, hrest⟩ := List.cons.inj h
          exact ⟨rfl, hrest⟩
      | long name' given' => cases hshape
      | short cs' last' => cases hshape
  | long name given =>
      cases b with
      | positional token' => cases hshape
      | long name' given' => exact Item.long_append_inj ha hb h
      | short cs' last' => cases hshape
  | short cs last =>
      cases b with
      | positional token' => cases hshape
      | long name' given' => cases hshape
      | short cs' last' => exact Item.short_append_inj ha hb h

/-- Items with what follows them are told apart as long as what follows begins no
item. -/
theorem items_unique {s : Schema} {items items' : List Item} {rest rest' : List String}
    (hitems : ∀ item ∈ items, item.Valid s) (hitems' : ∀ item ∈ items', item.Valid s)
    (hrest : ∀ item more, rest = Item.tokens item ++ more → ¬item.Valid s)
    (hrest' : ∀ item more, rest' = Item.tokens item ++ more → ¬item.Valid s)
    (h : items.flatMap Item.tokens ++ rest = items'.flatMap Item.tokens ++ rest') :
    items = items' ∧ rest = rest' := by
  induction items generalizing items' with
  | nil =>
      cases items' with
      | nil => exact ⟨rfl, h⟩
      | cons item items' =>
          rw [List.flatMap_cons, List.append_assoc] at h
          exact absurd (hitems' item List.mem_cons_self) (hrest item _ h)
  | cons item items ih =>
      cases items' with
      | nil =>
          rw [List.flatMap_cons, List.append_assoc] at h
          exact absurd (hitems item List.mem_cons_self) (hrest' item _ h.symm)
      | cons item' items' =>
          rw [List.forall_mem_cons] at hitems hitems'
          simp only [List.flatMap_cons, List.append_assoc] at h
          obtain ⟨rfl, htail⟩ := Item.tokens_append_inj hitems.1 hitems'.1 h
          obtain ⟨rfl, hrests⟩ := ih hitems.2 hitems'.2 htail
          exact ⟨rfl, hrests⟩

theorem tailTokens_not_item {s : Schema} (tail : Option (List String)) (item : Item)
    (more : List String) (h : Line.tailTokens tail = item.tokens ++ more) : ¬item.Valid s := by
  intro hitem
  obtain ⟨token, tokens, htokens, hshape⟩ := hitem.shape_head
  cases tail with
  | none => simp [Line.tailTokens, htokens] at h
  | some tail =>
      rw [Line.tailTokens, htokens, List.cons_append] at h
      obtain ⟨rfl, -⟩ := List.cons.inj h
      -- The terminator looks like a long option, and no long form is empty.
      cases item with
      | positional token => cases hshape
      | long name given =>
          have hne := longName_ne_empty hitem.longName
          rw [Item.tokens_long] at htokens
          have hlist := congrArg String.toList (List.cons.inj htokens).1
          cases hattached : given.bind Supply.attached? with
          | none => exact hne (by simpa [longToken, hattached] using hlist)
          | some v => simp [longToken, hattached] at hlist
      | short cs last => cases hshape

/-- A line is determined by its tokens. -/
theorem line_unique {s : Schema} {line line' : Line} (h : line.Valid s) (h' : line'.Valid s)
    (htokens : line.tokens = line'.tokens) : line = line' := by
  obtain ⟨items, tail⟩ := line
  obtain ⟨items', tail'⟩ := line'
  obtain ⟨rfl, htail⟩ := items_unique h h' (tailTokens_not_item tail)
    (tailTokens_not_item tail') htokens
  have heq : tail = tail' := by
    cases tail <;> cases tail' <;> simp [Line.tailTokens] at htail ⊢
    exact htail
  rw [heq]

/-- Where a command line gets stuck is determined by its tokens. -/
theorem stuck_unique {s : Schema} {items items' : List Item} {rest rest' : List String}
    {e e' : ParseError} (hitems : ∀ item ∈ items, item.Valid s)
    (hitems' : ∀ item ∈ items', item.Valid s) (hrest : Stuck s rest e)
    (hrest' : Stuck s rest' e')
    (h : items.flatMap Item.tokens ++ rest = items'.flatMap Item.tokens ++ rest') :
    items = items' ∧ rest = rest' := by
  apply items_unique hitems hitems' _ _ h
  · rintro item more rfl
    exact hrest.not_item
  · rintro item more rfl
    exact hrest'.not_item

end CommandSchema
