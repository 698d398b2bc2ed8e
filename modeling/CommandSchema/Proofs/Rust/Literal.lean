import CommandSchema.Proofs.Rust.Token
import CommandSchema.Text.Decimal
import CommandSchema.Text.Quoted

/-!
# Literals and words

What the generator writes for a text, a character, a number or a name is one token,
and it is the token of what was written.
-/

namespace CommandSchema.Rust

namespace Mode

/-! ## Digits -/

theorem hexDigit?_digitChar {d : ℕ} (h : d < 16) : hexDigit? d.digitChar = some d := by
  have hall : ∀ d < 16, hexDigit? (Nat.digitChar d) = some d := by decide
  exact hall d h

theorem hexDigit_ne_brace {d : ℕ} (h : d < 16) : d.digitChar ≠ '}' := by
  have hall : ∀ d < 16, Nat.digitChar d ≠ '}' := by decide
  exact hall d h

/-- A code in base sixteen is read back as long as its digits are not too many. -/
theorem run_hex (mark : Char) (text : List Char) (n : ℕ)
    (h : (Nat.toDigits 16 n).length ≤ 6) :
    run (.code mark text 0 0) (Nat.toDigits 16 n) =
      some (.code mark text n (Nat.toDigits 16 n).length, []) := by
  induction n using Nat.strongRecOn with
  | ind n ih =>
      by_cases hn : n < 16
      · rw [Nat.toDigits_of_lt_base hn]
        simp [run, step, hexDigit?_digitChar hn, hexDigit_ne_brace hn]
      · have hdigits := Nat.toDigits_of_base_le (by decide : 1 < 16) (Nat.le_of_not_lt hn)
        have hlast : n % 16 < 16 := Nat.mod_lt n (by decide)
        have hlength : (Nat.toDigits 16 n).length = (Nat.toDigits 16 (n / 16)).length + 1 := by
          rw [hdigits, List.length_append, List.length_singleton]
        have hfront := ih (n / 16) (by omega) (by omega)
        have hroom : (Nat.toDigits 16 (n / 16)).length < 6 := by omega
        have hvalue : n / 16 * 16 + n % 16 = n := by omega
        rw [hlength, hdigits, run_append, hfront]
        simp [run, step, hexDigit?_digitChar hlast, hexDigit_ne_brace hlast, hroom, hvalue]

theorem run_decimal (n : ℕ) :
    run .blank (Nat.toDigits 10 n) = some (.number n, []) := by
  have hstart : ∀ d < 10, start (Nat.digitChar d) = some (.number d, []) := by decide
  induction n using Nat.strongRecOn with
  | ind n ih =>
      by_cases hn : n < 10
      · rw [Nat.toDigits_of_lt_base hn]
        simp [run, step, hstart n hn]
      · have hdigits := Nat.toDigits_of_base_le (by decide : 1 < 10) (Nat.le_of_not_lt hn)
        have hlast : n % 10 < 10 := Nat.mod_lt n (by decide)
        have hvalue : n / 10 * 10 + n % 10 = n := by omega
        rw [hdigits, run_append, ih (n / 10) (by omega)]
        have hdigit : (n % 10).digitChar.isDigit = true := by
          simp [Nat.isDigit_digitChar, hlast]
        have hread := Nat.toNat_digitChar_sub_48_of_lt_ten hlast
        simp [run, step, hdigit, hread, hvalue]

/-! ## Escapes -/

/-- A character in its escaped form is read back into the literal. -/
theorem run_escape {mark : Char} (hmark : mark = '"' ∨ mark = '\'') (c : Char)
    (text : List Char) :
    run (.literal mark text) (Text.escape mark c) = some (.literal mark (text ++ [c]), []) := by
  have hbackslash : mark ≠ '\\' := by rcases hmark with rfl | rfl <;> decide
  unfold Text.escape
  split_ifs with hnull htab hreturn hfeed hself hvisible
  · simp [run, step, simpleEscape?, hnull, hbackslash.symm]
  · simp [run, step, simpleEscape?, htab, hbackslash.symm]
  · simp [run, step, simpleEscape?, hreturn, hbackslash.symm]
  · simp [run, step, simpleEscape?, hfeed, hbackslash.symm]
  · rcases hself with rfl | rfl
    · rcases hmark with rfl | rfl <;> simp [run, step, simpleEscape?]
    · simp [run, step, simpleEscape?, hbackslash.symm]
  · rw [not_or] at hself
    simp [run, step, hself.1, hself.2, hreturn]
  · have hvalid : c.toNat.isValidChar := c.valid
    have hbound : c.toNat < 16 ^ 6 := by
      rcases hvalid with hlow | ⟨-, hhigh⟩
      · exact Nat.lt_trans hlow (by decide)
      · exact Nat.lt_trans hhigh (by decide)
    have hlength := (Nat.length_toDigits_le_iff (by decide : 1 < 16) (by decide)).mpr hbound
    have hdigits := run_hex mark text c.toNat hlength
    have hopen : run (.literal mark text) ['\\', 'u', '\x7b'] =
        some (.code mark text 0 0, []) := by
      simp [run, step, hbackslash.symm]
    have hclose : run (.code mark text c.toNat (Nat.toDigits 16 c.toNat).length) ['\x7d'] =
        some (.literal mark (text ++ [c]), []) := by
      simp [run, step, hvalid, Nat.length_toDigits_pos]
    rw [List.append_assoc, run_append_of_run hopen, Text.hex, run_append_of_run hdigits, hclose]
    rfl

theorem run_escapes (cs text : List Char) :
    run (.literal '"' text) (cs.flatMap (Text.escape '"')) =
      some (.literal '"' (text ++ cs), []) := by
  induction cs generalizing text with
  | nil => simp [run]
  | cons c cs ih =>
      rw [List.flatMap_cons, run_append_of_run (run_escape (Or.inl rfl) c text), ih]
      simp

theorem escape_cases (mark c : Char) :
    (∃ more, Text.escape mark c = '\\' :: more) ∨
      Text.escape mark c = [c] ∧ c ∉ [mark, '\\', '\t', '\r', '\n'] := by
  unfold Text.escape
  split_ifs with hnull htab hreturn hfeed hself hvisible
  · exact Or.inl ⟨_, rfl⟩
  · exact Or.inl ⟨_, rfl⟩
  · exact Or.inl ⟨_, rfl⟩
  · exact Or.inl ⟨_, rfl⟩
  · exact Or.inl ⟨_, rfl⟩
  · rw [not_or] at hself
    exact Or.inr ⟨rfl, by simp [hself.1, hself.2, htab, hreturn, hfeed]⟩
  · exact Or.inl ⟨_, rfl⟩

/-- After a single mark an escaped character is read as in a literal, although a
lifetime might have begun there. -/
theorem run_tick_escape (c : Char) :
    run .tick (Text.escape '\'' c ++ ['\'']) = some (.blank, [.char c]) := by
  have hliteral := run_escape (Or.inr rfl : '\'' = '"' ∨ '\'' = '\'') c []
  have hclose : run (.literal '\'' [c]) ['\''] = some (.blank, [.char c]) := rfl
  rcases escape_cases '\'' c with ⟨more, hmore⟩ | ⟨hplain, hnot⟩
  · have hsame : run .tick ('\\' :: more) = run (.literal '\'' []) ('\\' :: more) := rfl
    rw [hmore] at hliteral ⊢
    rw [run_append_of_run (hsame.trans hliteral)]
    simp [hclose]
  · simp only [List.mem_cons, not_or, List.not_mem_nil, not_false_eq_true, and_true] at hnot
    obtain ⟨hmark, hbackslash, htab, hreturn, hfeed⟩ := hnot
    simp [hplain, run, step, hmark, hbackslash, htab, hreturn, hfeed]

/-! ## Words -/

theorem run_word_part (name : List Char) {cs : List Char}
    (h : ∀ c ∈ cs, isWordPart c = true) :
    run (.word name) cs = some (.word (name ++ cs), []) := by
  induction cs generalizing name with
  | nil => simp [run]
  | cons c cs ih =>
      obtain ⟨hc, hcs⟩ := List.forall_mem_cons.mp h
      simp [run, step, hc, ih _ hcs]

end Mode

/-- The characters of a word. -/
structure IsWord (cs : List Char) : Prop where
  head : ∃ c more, cs = c :: more ∧ isWordStart c = true
  parts : ∀ c ∈ cs, isWordPart c = true

/-- The characters of an identifier, raw or not. -/
inductive IsIdent : List Char → Prop
  | plain {cs : List Char} (h : IsWord cs) : IsIdent cs
  | raw {cs : List Char} (h : IsWord cs) : IsIdent ('r' :: '#' :: cs)

theorem IsIdent.run {cs : List Char} (h : IsIdent cs) :
    Mode.run .blank cs = some (.word cs, []) := by
  cases h with
  | plain h =>
      obtain ⟨c, more, rfl, hc⟩ := h.head
      have hparts := (List.forall_mem_cons.mp h.parts).2
      have hblank : c ≠ ' ' ∧ c ≠ '\n' ∧ c ≠ '\t' := by
        refine ⟨?_, ?_, ?_⟩ <;> rintro rfl <;> revert hc <;> decide
      have hfirst : Mode.step .blank c = some (.word [c], []) := by
        simp [Mode.step, Mode.start, hc, hblank]
      rw [Mode.run_cons_of_step hfirst, Mode.run_word_part _ hparts]
      rfl
  | raw h =>
      obtain ⟨c, more, rfl, hc⟩ := h.head
      have hparts := (List.forall_mem_cons.mp h.parts).2
      have hmark : Mode.run .blank ['r', '#'] = some (.rawMark, []) := rfl
      have hfirst : Mode.step .rawMark c = some (.word ['r', '#', c], []) := by
        simp [Mode.step, hc]
      change Mode.run .blank (['r', '#'] ++ c :: more) = _
      rw [Mode.run_append_of_run hmark, Mode.run_cons_of_step hfirst,
        Mode.run_word_part _ hparts]
      rfl

/-- Whether an identifier is over when a character comes. -/
def endsIdent (c : Char) : Bool :=
  !(isWordPart c || ['#', '"', '\''].contains c)

theorem IsIdent.closed {cs back : List Char} {c : Char} {more : List Token} (h : IsIdent cs)
    (hc : endsIdent c = true) (h' : Closed (c :: back) more) :
    Closed (cs ++ c :: back) (.word (String.ofList cs) :: more) := by
  simp only [endsIdent, Bool.not_eq_true', Bool.or_eq_false_iff, List.contains_eq_mem,
    decide_eq_false_iff_not, List.mem_cons, not_or, List.not_mem_nil, not_false_eq_true,
    and_true] at hc
  obtain ⟨hpart, hhash, hquote, htick⟩ := hc
  have hstep : Mode.step (.word cs) c = Mode.restart (.word cs) c := by
    simp [Mode.step, hpart, hhash, hquote, htick]
  exact Closed.after_run h.run rfl hstep h'

/-- A line with an identifier in it. -/
theorem IsIdent.closed_line {front ident back : String} {tokens more : List Token} {c : Char}
    {rest : List Char} (h : IsIdent ident.toList) (hfront : Closed front.toList tokens)
    (hback : back.toList = c :: rest) (hc : endsIdent c = true) (h' : Closed back.toList more) :
    Closed (front ++ ident ++ back).toList (tokens ++ .word ident :: more) := by
  rw [hback] at h'
  have hident := h.closed hc h'
  rw [String.ofList_toList] at hident
  rw [String.toList_append, String.toList_append, List.append_assoc, hback]
  exact hfront.append hident

/-! ## Literals -/

theorem closed_quote (text : String) : Closed (Text.quote text).toList [.string text] := by
  have hclose : Mode.run (.literal '"' text.toList) ['"'] =
      some (.blank, [.string (String.ofList text.toList)]) := by
    simp [Mode.run, Mode.step, literal?]
  have hopen : Mode.step .blank '"' = some (.literal '"' [], []) := rfl
  rw [Closed, Text.quote, String.toList_ofList, Mode.run_cons_of_step hopen,
    Mode.run_append_of_run (Mode.run_escapes text.toList []), List.nil_append, hclose]
  simp

/-- A line with a literal in it. -/
theorem closed_quotedLine {front back : String} {tokens more : List Token}
    (hfront : Closed front.toList tokens) (content : String) (hback : Closed back.toList more) :
    Closed (front ++ Text.quote content ++ back).toList (tokens ++ .string content :: more) := by
  rw [String.toList_append, String.toList_append, List.append_assoc]
  exact hfront.append ((closed_quote content).append hback)

theorem closed_quoteChar (c : Char) : Closed (Text.quoteChar c).toList [.char c] := by
  have hopen : Mode.step .blank '\'' = some (.tick, []) := rfl
  rw [Closed, Text.quoteChar, String.toList_ofList, Mode.run_cons_of_step hopen,
    Mode.run_tick_escape]
  rfl

/-- A literal in which no character needs an escape. -/
theorem closed_string {cs : List Char} (h : ∀ c ∈ cs, c ∉ ['"', '\\', '\r']) :
    Closed ('"' :: (cs ++ ['"'])) [.string (String.ofList cs)] := by
  have hplain : ∀ text : List Char, Mode.run (.literal '"' text) cs =
      some (.literal '"' (text ++ cs), []) := by
    induction cs with
    | nil => simp [Mode.run]
    | cons c cs ih =>
        rw [List.forall_mem_cons] at h
        have hc := h.1
        simp only [List.mem_cons, not_or, List.not_mem_nil, not_false_eq_true, and_true] at hc
        intro text
        simp [Mode.run, Mode.step, hc, ih h.2]
  have hopen : Mode.step .blank '"' = some (.literal '"' [], []) := rfl
  rw [Closed, Mode.run_cons_of_step hopen, Mode.run_append_of_run (hplain [])]
  simp [Mode.run, Mode.step, literal?]

theorem tokens?_decimal (n : ℕ) : tokens? (Nat.toDigits 10 n) = some [.int n] := by
  rw [tokens?, Mode.run_decimal]
  simp [Mode.flush]

end CommandSchema.Rust
