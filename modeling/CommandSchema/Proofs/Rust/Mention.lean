import CommandSchema.Proofs.Rust.Expression
import CommandSchema.Proofs.Rust.Line

/-!
# Names that source mentions

A word mentions a name where it begins a path.  After a dot or two colons a word belongs
to what stands before it, before a single colon it is declared there, and after `struct`,
`impl` or `for` it names the type that an item is about.  Literals and comments mention
nothing.
-/

namespace CommandSchema.Rust

/-! ## Expressions -/

namespace Expr

mutual

/-- The words with which the paths of an expression begin. -/
def mentions : Expr → List String
  | path parts => parts.take 1
  | call parts args => parts.take 1 ++ mentionsAll args
  | method receiver _ args => receiver.mentions ++ mentionsAll args
  | vec items => mentionsAll items
  | closure body => body.mentions
  | _ => []

/-- The words with which the paths of expressions begin. -/
def mentionsAll : List Expr → List String
  | [] => []
  | e :: es => e.mentions ++ mentionsAll es

end

theorem mentionsAll_append (es more : List Expr) :
    mentionsAll (es ++ more) = mentionsAll es ++ mentionsAll more := by
  induction es with
  | nil => rfl
  | cons e es ih => simp [mentionsAll, ih]

theorem mem_mentionsAll {x : String} {es : List Expr} :
    x ∈ mentionsAll es ↔ ∃ e ∈ es, x ∈ e.mentions := by
  induction es with
  | nil => simp [mentionsAll]
  | cons e es ih => simp [mentionsAll, ih]

end Expr

/-! ## Items -/

/-- What is known after some tokens. -/
structure Census where
  /-- Whether a word that comes next belongs to something else. -/
  owned : Bool
  /-- The last word, which a colon may still declare. -/
  pending : Option String
  /-- The mentioned names, last first. -/
  found : List String
  deriving DecidableEq, Repr

namespace Census

/-- The words after which an item is named. -/
def itemWords : List String :=
  ["struct", "impl", "for"]

/-- The names that are mentioned if no colon follows. -/
def settle (names : List String) (s : Census) : List String :=
  match s.pending with
  | some word => if names.contains word then word :: s.found else s.found
  | none => s.found

/-- Takes a token. -/
def step (names : List String) (s : Census) : Token → Census
  | .word word =>
    if s.owned then ⟨false, none, s.settle names⟩
    else ⟨itemWords.contains word, some word, s.settle names⟩
  | .sep | .punct '.' => ⟨true, none, s.settle names⟩
  | .punct ':' => ⟨false, none, s.found⟩
  | _ => ⟨false, none, s.settle names⟩

/-- Nothing is begun, and some names were mentioned. -/
def idle (found : List String) : Census :=
  ⟨false, none, found⟩

end Census

/-- The names out of `names` that tokens mention. -/
def mentions (names : List String) (tokens : List Token) : List String :=
  (tokens.foldl (Census.step names) (Census.idle [])).settle names

/-! ## Mentions in texts -/

/-- The tokens of a text lead from one census to another. -/
def Counts (names : List String) : List Char → Census → Census → Prop :=
  Leads fun s token => some (s.step names token)

theorem Counts.trans {names : List String} {front back : List Char} {s s' s'' : Census}
    (h : Counts names front s s') (h' : Counts names back s' s'') :
    Counts names (front ++ back) s s'' :=
  Leads.trans h h'

theorem Counts.mentions_eq {names found : List String} {text : List Char} {head : List Token}
    {s : Census} (h : Counts names text s (.idle found))
    (hhead : head.foldl (Census.step names) (Census.idle []) = s) :
    ∃ tokens, tokens? text = some tokens ∧ mentions names (head ++ tokens) = found := by
  obtain ⟨tokens, hclosed, hfold⟩ := h
  refine ⟨tokens, hclosed.tokens?_eq, ?_⟩
  have hfold' : tokens.foldl (Census.step names) s = .idle found :=
    Option.some.inj ((List.foldlM_pure (m := Option)).symm.trans hfold)
  rw [mentions, List.foldl_append, hhead, hfold']
  rfl

/-- A text that mentions none of the names. -/
def Silent (names : List String) (text : List Char) : Prop :=
  ∀ found, Counts names text (.idle found) (.idle found)

section Silent

variable {names : List String} {front back text : List Char}

theorem Silent.append (h : Silent names front) (h' : Silent names back) :
    Silent names (front ++ back) :=
  fun found => (h found).trans (h' found)

theorem Silent.newline (h : Silent names text) : Silent names (text ++ ['\n']) :=
  fun found => (h found).newline

theorem Silent.unlines_cons {line : String} {lines : List String}
    (h : Silent names (line.toList ++ ['\n'])) (h' : Silent names (unlines lines).toList) :
    Silent names (unlines (line :: lines)).toList :=
  fun found => (h found).unlines_cons (h' found)

theorem Silent.unlines_append {lines more : List String}
    (h : Silent names (unlines lines).toList) (h' : Silent names (unlines more).toList) :
    Silent names (unlines (lines ++ more)).toList :=
  fun found => (h found).unlines_append (h' found)

theorem Silent.unlines_flatMap {α : Type} {lines : α → List String} {items : List α}
    (h : ∀ item ∈ items, Silent names (unlines (lines item)).toList) :
    Silent names (unlines (items.flatMap lines)).toList := by
  induction items with
  | nil => exact fun _ => Leads.unlines_nil
  | cons item items ih =>
      rw [List.forall_mem_cons] at h
      rw [List.flatMap_cons]
      exact h.1.unlines_append (ih h.2)

theorem Silent.unlines_of_forall {lines : List String}
    (h : ∀ line ∈ lines, Silent names (line.toList ++ ['\n'])) :
    Silent names (unlines lines).toList :=
  fun found => Leads.unlines_of_forall fun line hline => h line hline found

theorem silent_unlines_nil : Silent names (unlines []).toList :=
  fun _ => Leads.unlines_nil

/-- A text without parts that depend on a schema, read as it stands. -/
theorem silent_of_chars {tokens : List Token} (h : Closed text tokens)
    (hfold : ∀ found, tokens.foldlM (fun s token => some (Census.step names s token))
      (Census.idle found) = some (Census.idle found)) :
    Silent names (String.ofList text).toList :=
  fun found => Leads.of_chars ⟨tokens, h, hfold found⟩

theorem silent_of_closed_nil (h : Closed text []) : Silent names text :=
  fun _ => ⟨[], h, rfl⟩

/-- An identifier goes on to what stands behind it. -/
theorem IsIdent.counts {ident : String} (h : IsIdent ident.toList) {s s' : Census} {c : Char}
    {more : List Char} (hback : back = c :: more) (hc : endsIdent c = true)
    (h' : Counts names back (s.step names (.word ident)) s') :
    Counts names (ident.toList ++ back) s s' := by
  subst hback
  obtain ⟨tokens, hclosed, hfold⟩ := h'
  refine ⟨.word ident :: tokens, ?_, hfold⟩
  have hall := h.closed hc hclosed
  rwa [String.ofList_toList] at hall

/-- The name of an item is not mentioned. -/
theorem IsIdent.counts_owned {ident : String} (h : IsIdent ident.toList) {s : Census}
    {found : List String} {c : Char} {more : List Char} (hback : back = c :: more)
    (hc : endsIdent c = true) (howned : s.owned = true) (hsettle : s.settle names = found)
    (h' : Silent names back) : Counts names (ident.toList ++ back) s (.idle found) := by
  refine h.counts hback hc ?_
  have hstep : s.step names (.word ident) = .idle found := by
    simp [Census.step, Census.idle, howned, hsettle]
  rw [hstep]
  exact h' found

end Silent

end CommandSchema.Rust
