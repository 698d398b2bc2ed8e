import CommandSchema.Proofs.Rust.Expression

/-!
# Texts that spell an expression

A text spells an expression if it is read as that expression wherever an operand may
stand.  The rules below follow the syntax: the spelling of a call comes from those of
its arguments.
-/

namespace CommandSchema.Rust

/-- The text is read as an expression wherever an operand may stand. -/
def Spells (text : List Char) (e : Expr) : Prop :=
  ∀ frames, Reaches Reader.step text ⟨.operand, frames⟩ ⟨.more e, frames⟩

/-- The text spells an expression, and no token of it can go on behind it. -/
def SpellsWhole (text : List Char) (e : Expr) : Prop :=
  ∀ frames, Leads Reader.step text ⟨.operand, frames⟩ ⟨.more e, frames⟩

theorem SpellsWhole.spells {text : List Char} {e : Expr} (h : SpellsWhole text e) :
    Spells text e :=
  fun frames => (h frames).reaches

/-! ## Literals -/

theorem spellsWhole_quote (text : String) :
    SpellsWhole (Text.quote text).toList (.string text) :=
  fun _ => ⟨_, closed_quote text, rfl⟩

theorem spellsWhole_quoteChar (c : Char) : SpellsWhole (Text.quoteChar c).toList (.char c) :=
  fun _ => ⟨_, closed_quoteChar c, rfl⟩

theorem spells_decimal (n : Int) : Spells (Text.decimal n).toList (.int n) := by
  intro frames
  cases n with
  | ofNat n =>
      rw [Text.decimal, String.toList_ofList]
      exact ⟨_, tokens?_decimal n, rfl⟩
  | negSucc n =>
      rw [Text.decimal, String.toList_ofList]
      have hminus : Leads Reader.step ['-'] ⟨.operand, frames⟩ ⟨.number, frames⟩ :=
        ⟨_, rfl, rfl⟩
      exact hminus.trans_reaches ⟨_, tokens?_decimal (n + 1), rfl⟩

/-! ## Arguments -/

section Arguments

variable {text : List Char} {e : Expr} {frame after : Frame} {frames : List Frame}

theorem Reader.punct_comma (e : Expr) (frames : List Frame) (h : frame.add e = some after)
    (hcomma : after.takesComma = true) :
    Reader.punct e (frame :: frames) ',' = some ⟨.operand, after :: frames⟩ := by
  unfold Reader.punct
  split
  · simp_all
  · split <;> simp_all

theorem Frame.close_bracket {c : Char} {whole : Expr} (h : frame.close c = some whole) :
    c = ')' ∨ c = ']' ∨ c = '}' := by
  unfold Frame.close at h
  split at h <;> simp_all

theorem Reader.punct_close {c : Char} {whole : Expr} (e : Expr) (frames : List Frame)
    (h : frame.add e = some after) (hclose : after.close c = some whole) :
    Reader.punct e (frame :: frames) c = some ⟨.more whole, frames⟩ := by
  unfold Reader.punct
  rcases Frame.close_bracket hclose with rfl | rfl | rfl <;> split <;>
    simp_all [Reader.close]

theorem Spells.comma (h : Spells text e) (frames : List Frame)
    (hadd : frame.add e = some after) (hcomma : after.takesComma = true) :
    Leads Reader.step (text ++ ", ".toList) ⟨.operand, frame :: frames⟩
      ⟨.operand, after :: frames⟩ := by
  have hread := Reader.punct_comma e frames hadd hcomma
  refine (h (frame :: frames)).trans (String.toList_ofList (l := [',', ' '])) (by decide) ?_
  exact Leads.of_chars ⟨[.punct ','], rfl, by simpa [Reader.step] using hread⟩

theorem Spells.close {c : Char} {whole : Expr} (h : Spells text e) (frames : List Frame)
    (hadd : frame.add e = some after) (hclose : after.close c = some whole) :
    Leads Reader.step (text ++ [c]) ⟨.operand, frame :: frames⟩ ⟨.more whole, frames⟩ := by
  have hread := Reader.punct_close e frames hadd hclose
  rcases Frame.close_bracket hclose with rfl | rfl | rfl <;>
    exact (h (frame :: frames)).trans rfl (by decide)
      ⟨[.punct _], rfl, by simpa [Reader.step] using hread⟩

theorem Reader.operand_close {c : Char} {whole : Expr} (frames : List Frame)
    (hclose : frame.close c = some whole) :
    Reader.step ⟨.operand, frame :: frames⟩ (.punct c) = some ⟨.more whole, frames⟩ := by
  rcases Frame.close_bracket hclose with rfl | rfl | rfl <;>
    simp [Reader.step, Reader.close, hclose]

end Arguments

/-- The items of a list, up to its closing bracket. -/
theorem leads_items {α : Type} {source : α → List Char} {expr : α → Expr}
    (h : ∀ a, Spells (source a) (expr a)) (items : List α) (done : List Expr)
    (frames : List Frame) :
    Leads Reader.step (List.intercalate ", ".toList (items.map source) ++ [']'])
      ⟨.operand, .vec done :: frames⟩ ⟨.more (.vec (done ++ items.map expr)), frames⟩ := by
  induction items generalizing done with
  | nil =>
      have hread := Reader.operand_close frames (rfl : (Frame.vec done).close ']' = some (.vec done))
      exact ⟨[.punct ']'], rfl, by simpa using hread⟩
  | cons item items ih =>
      cases items with
      | nil =>
          have hlast : Leads Reader.step (source item ++ [']'])
              ⟨.operand, .vec done :: frames⟩ ⟨.more (.vec (done ++ [expr item])), frames⟩ :=
            (h item).close frames rfl rfl
          simpa using hlast
      | cons next rest =>
          have hfirst : Leads Reader.step (source item ++ ", ".toList)
              ⟨.operand, .vec done :: frames⟩ ⟨.operand, .vec (done ++ [expr item]) :: frames⟩ :=
            (h item).comma frames rfl rfl
          have hrest := ih (done ++ [expr item])
          simpa using hfirst.trans hrest

/-! ## Functions -/

theorem toList_bracket : ")".toList = [')'] :=
  String.toList_ofList

/-- The text is read as the last arguments of a function, up to the closing bracket. -/
def SpellsArguments (text : List Char) (es : List Expr) : Prop :=
  ∀ parts done frames, Leads Reader.step (text ++ ")".toList)
    ⟨.operand, .call parts done :: frames⟩ ⟨.more (.call parts (done ++ es)), frames⟩

theorem Spells.arguments {text : List Char} {e : Expr} (h : Spells text e) :
    SpellsArguments text [e] := by
  intro parts done frames
  rw [toList_bracket]
  exact h.close frames rfl rfl

theorem Spells.cons_arguments {text more : List Char} {e : Expr} {es : List Expr}
    (h : Spells text e) (hmore : SpellsArguments more es) :
    SpellsArguments (text ++ (", ".toList ++ more)) (e :: es) := by
  intro parts done frames
  have hfirst : Leads Reader.step (text ++ ", ".toList) ⟨.operand, .call parts done :: frames⟩
      ⟨.operand, .call parts (done ++ [e]) :: frames⟩ := h.comma frames rfl rfl
  have hrest := hmore parts (done ++ [e]) frames
  rw [List.append_assoc, List.singleton_append] at hrest
  simpa only [List.append_assoc] using hfirst.trans hrest

/-- A call of a function that belongs to a type. -/
theorem SpellsArguments.call {front arguments type function : String} {es : List Expr}
    (h : SpellsArguments arguments.toList es)
    (hfront : Closed front.toList [.word type, .sep, .word function, .punct '(']) :
    SpellsWhole (front ++ arguments ++ ")").toList (.call [type, function] es) := by
  intro frames
  have hopen : Leads Reader.step front.toList ⟨.operand, frames⟩
      ⟨.operand, .call [type, function] [] :: frames⟩ := ⟨_, hfront, rfl⟩
  rw [String.toList_append, String.toList_append, List.append_assoc]
  exact hopen.trans (h [type, function] [] frames)

/-! ## Methods -/

section Methods

variable {text : List Char} {name : String} (e : Expr) (frames : List Frame)

theorem Reader.step_punct (c : Char) :
    Reader.step ⟨.more e, frames⟩ (.punct c) = Reader.punct e frames c := by
  simp [Reader.step]

theorem Reader.step_dot (htakes : Reader.takesMethods e = true) :
    Reader.step ⟨.more e, frames⟩ (.punct '.') = some ⟨.name e, frames⟩ := by
  simp [Reader.step_punct, Reader.punct, htakes]

/-- The beginning of a method call, up to its arguments. -/
theorem leads_method (htakes : Reader.takesMethods e = true)
    (htext : Closed text [.punct '.', .word name, .punct '(']) :
    Leads Reader.step text ⟨.more e, frames⟩ ⟨.operand, .method e name [] :: frames⟩ := by
  refine ⟨_, htext, ?_⟩
  rw [List.foldlM_cons, Reader.step_dot e frames htakes]
  rfl

theorem leads_method_empty (htakes : Reader.takesMethods e = true)
    (htext : Closed text [.punct '.', .word name, .punct '(', .punct ')']) :
    Leads Reader.step text ⟨.more e, frames⟩ ⟨.more (.method e name []), frames⟩ := by
  refine ⟨_, htext, ?_⟩
  rw [List.foldlM_cons, Reader.step_dot e frames htakes]
  rfl

/-- A call of a method with one argument. -/
theorem leads_methodCall {front argument name : String} {argumentExpr : Expr}
    (htakes : Reader.takesMethods e = true)
    (hfront : Closed front.toList [.punct '.', .word name, .punct '('])
    (h : Spells argument.toList argumentExpr) :
    Leads Reader.step (front ++ argument ++ ")").toList ⟨.more e, frames⟩
      ⟨.more (.method e name [argumentExpr]), frames⟩ := by
  have hclose : Leads Reader.step (argument.toList ++ [')'])
      ⟨.operand, .method e name [] :: frames⟩ ⟨.more (.method e name [argumentExpr]), frames⟩ :=
    h.close frames rfl rfl
  rw [String.toList_append, String.toList_append, List.append_assoc, toList_bracket]
  exact (leads_method e frames htakes hfront).trans hclose

end Methods

end CommandSchema.Rust
