import Mathlib.Data.List.Basic

/-!
# Tokens of Rust source

The part of Rust's lexical syntax that generated modules are written in: words,
lifetimes, literals, punctuation and line comments.  Source text is read by a machine
that takes one character at a time, so what it reads of a text follows from what it
reads of the pieces.  The machine reads less than Rust does, and it refuses a text
rather than read it in another way; only comments are skipped whatever they hold.
-/

namespace CommandSchema.Rust

/-- A token. -/
inductive Token
  /-- An identifier or a keyword; a raw identifier keeps its `r#`. -/
  | word (name : String)
  | lifetime (name : String)
  | string (text : String)
  | char (c : Char)
  | int (n : ℕ)
  /-- Two colons. -/
  | sep
  | punct (c : Char)
  deriving DecidableEq, Repr

/-- What the machine is in the middle of. -/
inductive Mode
  | blank
  | word (name : List Char)
  /-- After `r#`, which a word has to follow. -/
  | rawMark
  | number (n : ℕ)
  | colon
  | slash
  | comment
  /-- After a single quotation mark. -/
  | tick
  /-- After a single quotation mark and a character other than a backslash. -/
  | ticked (c : Char)
  | lifetime (name : List Char)
  /-- In a literal that ends at `mark`. -/
  | literal (mark : Char) (text : List Char)
  | escape (mark : Char) (text : List Char)
  /-- After `\u`, where a brace has to follow. -/
  | codeMark (mark : Char) (text : List Char)
  | code (mark : Char) (text : List Char) (n digits : ℕ)
  deriving DecidableEq, Repr

/-- Whether a word can start with a character. -/
def isWordStart (c : Char) : Bool :=
  c.isAlpha || c == '_'

/-- Whether a word can go on with a character. -/
def isWordPart (c : Char) : Bool :=
  c.isAlphanum || c == '_'

/-- The characters that stand for themselves between tokens. -/
def isPunct (c : Char) : Bool :=
  ['!', '#', '$', '%', '&', '(', ')', '*', '+', ',', '-', '.', ';', '<', '=', '>', '?', '@',
    '[', ']', '^', '{', '|', '}', '~'].contains c

/-- The value of a digit in base sixteen. -/
def hexDigit? (c : Char) : Option ℕ :=
  if c.isDigit then some (c.toNat - '0'.toNat)
  else if 'a' ≤ c ∧ c ≤ 'f' then some (c.toNat - 'a'.toNat + 10)
  else if 'A' ≤ c ∧ c ≤ 'F' then some (c.toNat - 'A'.toNat + 10)
  else none

/-- The character that a single letter stands for after a backslash. -/
def simpleEscape? : Char → Option Char
  | '0' => some '\x00'
  | 't' => some '\t'
  | 'r' => some '\r'
  | 'n' => some '\n'
  | '"' => some '"'
  | '\'' => some '\''
  | '\\' => some '\\'
  | _ => none

/-- The token of a literal: any text between double marks, one character between single ones. -/
def literal? (mark : Char) (text : List Char) : Option Token :=
  if mark = '"' then some (.string (String.ofList text))
  else match text with
    | [c] => some (.char c)
    | _ => none

namespace Mode

/-- The tokens that end where the text ends. -/
def flush : Mode → Option (List Token)
  | blank => some []
  | word name => some [.word (String.ofList name)]
  | number n => some [.int n]
  | colon => some [.punct ':']
  | slash => some [.punct '/']
  | lifetime name => some [.lifetime (String.ofList name)]
  | _ => none

/-- Reads a character that begins a token. -/
def start (c : Char) : Option (Mode × List Token) :=
  if c = ' ' ∨ c = '\n' ∨ c = '\t' then some (blank, [])
  else if isWordStart c then some (word [c], [])
  else if c.isDigit then some (number (c.toNat - '0'.toNat), [])
  else if c = ':' then some (colon, [])
  else if c = '/' then some (slash, [])
  else if c = '"' then some (literal '"' [], [])
  else if c = '\'' then some (tick, [])
  else if isPunct c then some (blank, [.punct c])
  else none

/-- Ends the tokens that were begun and reads a character that begins the next one. -/
def restart (m : Mode) (c : Char) : Option (Mode × List Token) := do
  let ended ← m.flush
  let (next, begun) ← start c
  return (next, ended ++ begun)

/-- Reads one character. -/
def step : Mode → Char → Option (Mode × List Token)
  | blank, c => start c
  | word name, c =>
    if isWordPart c then some (word (name ++ [c]), [])
    else if c = '#' then if name = ['r'] then some (rawMark, []) else none
    -- A word at a quotation mark is the prefix of a literal of another sort.
    else if c = '"' ∨ c = '\'' then none
    else restart (word name) c
  | rawMark, c => if isWordStart c then some (word ['r', '#', c], []) else none
  | number n, c =>
    if c.isDigit then some (number (n * 10 + (c.toNat - '0'.toNat)), [])
    else if isWordStart c ∨ c = '.' then none
    else restart (number n) c
  | colon, c => if c = ':' then some (blank, [.sep]) else restart colon c
  | slash, c =>
    if c = '/' then some (comment, [])
    else if c = '*' then none
    else restart slash c
  | comment, c => if c = '\n' then some (blank, []) else some (comment, [])
  | tick, c =>
    if c = '\\' then some (escape '\'' [], [])
    else if c = '\'' ∨ c = '\n' ∨ c = '\r' ∨ c = '\t' then none
    else some (ticked c, [])
  | ticked c, d =>
    if d = '\'' then some (blank, [.char c])
    else if isWordStart c then
      if isWordPart d then some (lifetime [c, d], []) else restart (lifetime [c]) d
    else none
  | lifetime name, c =>
    if isWordPart c then some (lifetime (name ++ [c]), [])
    else if c = '\'' then none
    else restart (lifetime name) c
  | literal mark text, c =>
    if c = mark then (literal? mark text).map fun token => (blank, [token])
    else if c = '\\' then some (escape mark text, [])
    else if c = '\r' then none
    else some (literal mark (text ++ [c]), [])
  | escape mark text, c =>
    if c = 'u' then some (codeMark mark text, [])
    else (simpleEscape? c).map fun d => (literal mark (text ++ [d]), [])
  | codeMark mark text, c => if c = '{' then some (code mark text 0 0, []) else none
  | code mark text n digits, c =>
    if c = '}' then
      if 0 < digits ∧ n.isValidChar then some (literal mark (text ++ [Char.ofNat n]), []) else none
    else if digits < 6 then
      (hexDigit? c).map fun d => (code mark text (n * 16 + d) (digits + 1), [])
    else none

/-- Reads a text. -/
def run : Mode → List Char → Option (Mode × List Token)
  | m, [] => some (m, [])
  | m, c :: cs => do
    let (next, tokens) ← m.step c
    let (last, more) ← run next cs
    return (last, tokens ++ more)

end Mode

/-- The tokens of a text. -/
def tokens? (text : List Char) : Option (List Token) := do
  let (last, tokens) ← Mode.run .blank text
  return tokens ++ (← last.flush)

/-! ## Texts in pieces -/

namespace Mode

theorem run_cons (m : Mode) (c : Char) (cs : List Char) :
    run m (c :: cs) = (m.step c).bind fun (next, tokens) =>
      (run next cs).map fun (last, more) => (last, tokens ++ more) := by
  simp only [run, Option.bind_eq_bind, Option.pure_def]
  cases m.step c with
  | none => rfl
  | some first => cases h : run first.1 cs <;> simp [h]

theorem run_append (m : Mode) (front back : List Char) :
    run m (front ++ back) = (run m front).bind fun (next, tokens) =>
      (run next back).map fun (last, more) => (last, tokens ++ more) := by
  induction front generalizing m with
  | nil => cases h : run m back <;> simp [run, h]
  | cons c cs ih =>
      simp only [List.cons_append, run_cons]
      cases m.step c with
      | none => rfl
      | some first =>
          simp only [Option.bind_some, ih]
          cases run first.1 cs with
          | none => rfl
          | some second => cases h : run second.1 back <;> simp [h]

theorem run_cons_of_step {m next : Mode} {c : Char} {tokens : List Token}
    (h : m.step c = some (next, tokens)) (cs : List Char) :
    run m (c :: cs) = (run next cs).map fun (last, more) => (last, tokens ++ more) := by
  rw [run_cons, h, Option.bind_some]

theorem run_append_of_run {m next : Mode} {front : List Char} {tokens : List Token}
    (h : run m front = some (next, tokens)) (back : List Char) :
    run m (front ++ back) =
      (run next back).map fun (last, more) => (last, tokens ++ more) := by
  rw [run_append, h, Option.bind_some]

theorem restart_of_flush {m : Mode} {ended : List Token} (h : m.flush = some ended) (c : Char) :
    m.restart c = (start c).map fun (next, begun) => (next, ended ++ begun) := by
  cases hc : start c <;> simp [restart, h, hc]

end Mode

/-- The text is read completely, up to a place between two tokens. -/
def Closed (text : List Char) (tokens : List Token) : Prop :=
  Mode.run .blank text = some (.blank, tokens)

theorem Closed.append {front back : List Char} {tokens more : List Token}
    (h : Closed front tokens) (h' : Closed back more) :
    Closed (front ++ back) (tokens ++ more) := by
  unfold Closed at *
  rw [Mode.run_append_of_run h, h']
  rfl

theorem Closed.tokens?_eq {text : List Char} {tokens : List Token} (h : Closed text tokens) :
    tokens? text = some tokens := by
  unfold Closed at h
  simp [tokens?, h, Mode.flush]

theorem Closed.tokens?_append {front back : List Char} {tokens more : List Token}
    (h : Closed front tokens) (h' : tokens? back = some more) :
    tokens? (front ++ back) = some (tokens ++ more) := by
  unfold Closed at h
  unfold tokens? at *
  rw [Mode.run_append_of_run h]
  cases hback : Mode.run .blank back with
  | none => simp [hback] at h'
  | some reached =>
      obtain ⟨last, read⟩ := reached
      cases hlast : last.flush with
      | none => simp [hback, hlast] at h'
      | some ended =>
          obtain rfl : read ++ ended = more := by simpa [hback, hlast] using h'
          simp [hlast]

/-- The characters that end a word or a number and belong to no other token. -/
def isBreak (c : Char) : Bool :=
  [' ', '\n', ',', ';', '(', ')', '<', '>', '[', ']', '{', '}', '='].contains c

theorem not_isWordPart_of_isBreak {c : Char} (hc : isBreak c = true) :
    isWordPart c = false ∧ isWordStart c = false ∧ c.isDigit = false ∧
      c ∉ ['#', '"', '\'', '.', ':', '/', '*'] := by
  simp only [isBreak, List.contains_iff_mem, List.mem_cons, List.not_mem_nil, or_false] at hc
  rcases hc with rfl | rfl | rfl | rfl | rfl | rfl | rfl | rfl | rfl | rfl | rfl | rfl | rfl <;>
    decide

/-- After whatever may end there, a break is read as if nothing had been begun. -/
theorem Mode.step_of_isBreak {m : Mode} {c : Char} (hc : isBreak c = true)
    (hm : m.flush ≠ none) : m.step c = m.restart c := by
  obtain ⟨hpart, hstart, hdigit, hothers⟩ := not_isWordPart_of_isBreak hc
  simp only [List.mem_cons, not_or, List.not_mem_nil, not_false_eq_true, and_true] at hothers
  obtain ⟨hhash, hquote, htick, hdot, hcolon, hslash, hstar⟩ := hothers
  cases m with
  | blank => cases h : start c <;> simp [step, restart, flush, h]
  | word name => simp [step, hpart, hhash, hquote, htick]
  | number n => simp [step, hdigit, hstart, hdot]
  | colon => simp [step, hcolon]
  | slash => simp [step, hslash, hstar]
  | lifetime name => simp [step, hpart, htick]
  | _ => simp [flush] at hm

/-- A character that ends what was begun separates a text from what comes before it. -/
theorem Closed.after_run {front back : List Char} {c : Char} {m : Mode}
    {read ended more : List Token} (hfront : Mode.run .blank front = some (m, read))
    (hm : m.flush = some ended) (hstep : m.step c = m.restart c) (h' : Closed (c :: back) more) :
    Closed (front ++ c :: back) (read ++ ended ++ more) := by
  unfold Closed at *
  rw [Mode.run_cons, show Mode.blank.step c = Mode.start c from rfl] at h'
  rw [Mode.run_append_of_run hfront, Mode.run_cons, hstep, Mode.restart_of_flush hm]
  cases hstart : Mode.start c with
  | none => simp [hstart] at h'
  | some begun =>
      obtain ⟨next, first⟩ := begun
      cases hback : Mode.run next back with
      | none => simp [hstart, hback] at h'
      | some final =>
          obtain ⟨last, rest⟩ := final
          obtain ⟨rfl, rfl⟩ : last = .blank ∧ first ++ rest = more := by
            simpa [hstart, hback] using h'
          simp [hback]

theorem Closed.after {front back : List Char} {c : Char} {tokens more : List Token}
    (h : tokens? front = some tokens) (hc : isBreak c = true) (h' : Closed (c :: back) more) :
    Closed (front ++ c :: back) (tokens ++ more) := by
  unfold tokens? at h
  cases hfront : Mode.run .blank front with
  | none => simp [hfront] at h
  | some reached =>
      obtain ⟨m, read⟩ := reached
      cases hm : m.flush with
      | none => simp [hfront, hm] at h
      | some ended =>
          obtain rfl : read ++ ended = tokens := by simpa [hfront, hm] using h
          exact Closed.after_run hfront hm (Mode.step_of_isBreak hc (by simp [hm])) h'

/-- A string is read like the list of its characters.  A string literal unifies with
`String.ofList`, so this spares its decoding when the text is fixed. -/
theorem Closed.of_chars {text : List Char} {tokens : List Token} (h : Closed text tokens) :
    Closed (String.ofList text).toList tokens := by
  rw [String.toList_ofList]
  exact h

/-! ## Machines that take tokens -/

section Leads

variable {σ : Type} {step : σ → Token → Option σ} {front back : List Char} {s s' s'' : σ}

/-- The tokens of a text that is read completely lead a machine from one state to another. -/
def Leads (step : σ → Token → Option σ) (text : List Char) (s s' : σ) : Prop :=
  ∃ tokens, Closed text tokens ∧ tokens.foldlM step s = some s'

/-- The tokens of a text, the last of which may end with it, lead from one state to another. -/
def Reaches (step : σ → Token → Option σ) (text : List Char) (s s' : σ) : Prop :=
  ∃ tokens, tokens? text = some tokens ∧ tokens.foldlM step s = some s'

theorem Leads.refl (step : σ → Token → Option σ) (s : σ) : Leads step [] s s :=
  ⟨[], rfl, rfl⟩

theorem Leads.reaches (h : Leads step front s s') : Reaches step front s s' := by
  obtain ⟨tokens, hclosed, hfold⟩ := h
  exact ⟨tokens, hclosed.tokens?_eq, hfold⟩

theorem Leads.trans (h : Leads step front s s') (h' : Leads step back s' s'') :
    Leads step (front ++ back) s s'' := by
  obtain ⟨tokens, hfront, hfold⟩ := h
  obtain ⟨more, hback, hfold'⟩ := h'
  refine ⟨tokens ++ more, hfront.append hback, ?_⟩
  simp [List.foldlM_append, hfold, hfold']

theorem Leads.trans_reaches (h : Leads step front s s') (h' : Reaches step back s' s'') :
    Reaches step (front ++ back) s s'' := by
  obtain ⟨tokens, hfront, hfold⟩ := h
  obtain ⟨more, hback, hfold'⟩ := h'
  refine ⟨tokens ++ more, hfront.tokens?_append hback, ?_⟩
  simp [List.foldlM_append, hfold, hfold']

/-- A break separates a text from what comes before it. -/
theorem Reaches.trans {c : Char} {more : List Char} (h : Reaches step front s s')
    (hback : back = c :: more) (hc : isBreak c = true) (h' : Leads step back s' s'') :
    Leads step (front ++ back) s s'' := by
  subst hback
  obtain ⟨tokens, hfront, hfold⟩ := h
  obtain ⟨rest, hrest, hfold'⟩ := h'
  refine ⟨tokens ++ rest, Closed.after hfront hc hrest, ?_⟩
  simp [List.foldlM_append, hfold, hfold']

theorem Leads.of_chars (h : Leads step front s s') :
    Leads step (String.ofList front).toList s s' := by
  obtain ⟨tokens, hclosed, hfold⟩ := h
  exact ⟨tokens, hclosed.of_chars, hfold⟩

theorem Reaches.of_chars (h : Reaches step front s s') :
    Reaches step (String.ofList front).toList s s' := by
  rw [String.toList_ofList]
  exact h

end Leads

end CommandSchema.Rust
