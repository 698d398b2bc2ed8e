import CommandSchema.Text.Blank
import Mathlib.Data.List.Basic
import Mathlib.Data.List.TakeWhile

/-!
# Trimmed texts, words and lines

Trimming takes nothing but blanks away, so it leaves the words as they are.  The lines of a
text follow from its first line feed on: what stands before it is a line, up to a carriage
return, and the rest has its own lines.
-/

namespace CommandSchema.Text

/-! ## Trimmed texts -/

theorem mem_of_mem_trimEnd {c : Char} {cs : List Char} (h : c ∈ trimEnd cs) : c ∈ cs := by
  rw [trimEnd, List.mem_reverse] at h
  exact List.mem_reverse.mp ((List.dropWhile_sublist _).subset h)

theorem mem_dropWhile_isBlank {c : Char} {cs : List Char} (hc : isBlank c = false)
    (h : c ∈ cs) : c ∈ cs.dropWhile isBlank := by
  rw [← List.takeWhile_append_dropWhile (p := isBlank) (l := cs), List.mem_append] at h
  refine h.resolve_left fun hblank => ?_
  rw [List.mem_takeWhile_imp hblank] at hc
  cases hc

theorem mem_trim {c : Char} {cs : List Char} (hc : isBlank c = false) (h : c ∈ cs) :
    c ∈ trim cs := by
  have hstart := mem_dropWhile_isBlank hc h
  rw [← List.mem_reverse] at hstart
  exact List.mem_reverse.mpr (mem_dropWhile_isBlank hc hstart)

theorem dropWhile_isBlank {cs : List Char} (h : ∀ c ∈ cs, isBlank c = false) :
    cs.dropWhile isBlank = cs := by
  cases cs with
  | nil => rfl
  | cons c cs => rw [List.dropWhile_cons_of_neg (by simp [h c List.mem_cons_self])]

theorem trim_of_not_blank {cs : List Char} (h : ∀ c ∈ cs, isBlank c = false) :
    trim cs = cs := by
  have hreverse : ∀ c ∈ cs.reverse, isBlank c = false := fun c hc => h c (List.mem_reverse.mp hc)
  rw [trim, trimStart, dropWhile_isBlank h, trimEnd, dropWhile_isBlank hreverse,
    List.reverse_reverse]

theorem trim_eq_nil_iff (cs : List Char) : trim cs = [] ↔ ∀ c ∈ cs, isBlank c = true := by
  constructor
  · intro h c hc
    by_contra hblank
    have hmem := mem_trim (Bool.not_eq_true _ ▸ hblank) hc
    rw [h] at hmem
    exact List.not_mem_nil hmem
  · intro h
    rw [trim, trimStart, List.dropWhile_eq_nil_iff.mpr h]
    rfl

/-- What trimming takes from the end of a text are blanks. -/
theorem trimEnd_append_takeWhile (cs : List Char) :
    trimEnd cs ++ (cs.reverse.takeWhile isBlank).reverse = cs := by
  rw [trimEnd, ← List.reverse_append, List.takeWhile_append_dropWhile, List.reverse_reverse]

/-- A text that is not blank is cut behind its last character that is not blank. -/
theorem exists_trimEnd_eq {cs : List Char} (h : ∃ c ∈ cs, isBlank c = false) :
    ∃ front c blanks, cs = front ++ c :: blanks ∧ isBlank c = false ∧
      (∀ d ∈ blanks, isBlank d = true) ∧ trimEnd cs = front ++ [c] := by
  obtain ⟨d, hd, hdark⟩ := h
  have hmem := mem_dropWhile_isBlank hdark (List.mem_reverse.mpr hd)
  have hlast := List.head_dropWhile_not isBlank (List.ne_nil_of_mem hmem)
  obtain ⟨c, back, hdrop⟩ := List.exists_cons_of_ne_nil (List.ne_nil_of_mem hmem)
  have htrim : trimEnd cs = back.reverse ++ [c] := by rw [trimEnd, hdrop, List.reverse_cons]
  simp only [hdrop, List.head_cons] at hlast
  refine ⟨back.reverse, c, (cs.reverse.takeWhile isBlank).reverse, ?_, hlast, ?_, htrim⟩
  · conv_lhs => rw [← trimEnd_append_takeWhile cs, htrim]
    rw [List.append_assoc, List.singleton_append]
  · exact fun d hd => List.mem_takeWhile_imp (List.mem_reverse.mp hd)

/-! ## Pieces -/

/-- What a text is cut at is in none of the pieces, and nothing else comes into them. -/
theorem of_mem_splitOnP {p : Char → Bool} {piece cs : List Char} (h : piece ∈ cs.splitOnP p) :
    (∀ c ∈ piece, p c = false) ∧ piece ⊆ cs := by
  induction cs generalizing piece with
  | nil =>
      rw [List.splitOnP_nil, List.mem_singleton] at h
      subst h
      exact ⟨List.forall_mem_nil _, List.nil_subset _⟩
  | cons c cs ih =>
      rw [List.splitOnP_cons_eq_if_modifyHead] at h
      obtain ⟨first, rest, hpieces⟩ := List.exists_cons_of_ne_nil (List.splitOnP_ne_nil p cs)
      rw [hpieces] at ih h
      split at h
      · rcases List.mem_cons.mp h with rfl | hmem
        · exact ⟨List.forall_mem_nil _, List.nil_subset _⟩
        · exact ⟨(ih hmem).1, List.subset_cons_of_subset c (ih hmem).2⟩
      · rename_i hc
        rw [List.modifyHead_cons] at h
        rcases List.mem_cons.mp h with rfl | hmem
        · have hfirst := ih List.mem_cons_self
          exact ⟨List.forall_mem_cons.mpr ⟨Bool.not_eq_true _ ▸ hc, hfirst.1⟩,
            List.cons_subset_cons c hfirst.2⟩
        · have hlater := ih (List.mem_cons_of_mem _ hmem)
          exact ⟨hlater.1, List.subset_cons_of_subset c hlater.2⟩

theorem of_mem_splitOn {sep : Char} {piece cs : List Char} (h : piece ∈ cs.splitOn sep) :
    sep ∉ piece ∧ piece ⊆ cs := by
  rw [List.splitOn_eq_splitOnP] at h
  obtain ⟨hother, hsubset⟩ := of_mem_splitOnP h
  exact ⟨fun hsep => by simpa using hother sep hsep, hsubset⟩

/-! ## Words -/

theorem not_blank_of_mem_words {word cs : List Char} (h : word ∈ words cs) :
    ∀ c ∈ word, isBlank c = false :=
  (of_mem_splitOnP (List.mem_filter.mp h).1).1

theorem words_append_blank {c : Char} (hc : isBlank c = true) (front back : List Char) :
    words (front ++ c :: back) = words front ++ words back := by
  rw [words, List.splitOnP_append_cons _ _ hc, List.filter_append, words, words]

theorem words_of_blanks {blanks : List Char} (h : ∀ c ∈ blanks, isBlank c = true) :
    words blanks = [] := by
  induction blanks with
  | nil => rfl
  | cons c blanks ih =>
      rw [List.forall_mem_cons] at h
      rw [← List.nil_append (c :: blanks), words_append_blank h.1, ih h.2]
      rfl

theorem words_append_blanks {blanks : List Char} (h : ∀ c ∈ blanks, isBlank c = true)
    (cs : List Char) : words (cs ++ blanks) = words cs := by
  cases blanks with
  | nil => rw [List.append_nil]
  | cons c blanks =>
      rw [List.forall_mem_cons] at h
      rw [words_append_blank h.1, words_of_blanks h.2, List.append_nil]

theorem words_blanks_append {blanks : List Char} (h : ∀ c ∈ blanks, isBlank c = true)
    (cs : List Char) : words (blanks ++ cs) = words cs := by
  induction blanks with
  | nil => rw [List.nil_append]
  | cons c blanks ih =>
      rw [List.forall_mem_cons] at h
      rw [List.cons_append, ← List.nil_append (c :: _), words_append_blank h.1, ih h.2]
      rfl

theorem words_trim (cs : List Char) : words (trim cs) = words cs := by
  have hblank : ∀ {cs : List Char}, ∀ c ∈ cs.takeWhile isBlank, isBlank c = true :=
    fun _ => List.mem_takeWhile_imp
  have hstart : words (trimStart cs) = words cs := by
    rw [← words_blanks_append hblank, trimStart, List.takeWhile_append_dropWhile]
  have hend : ∀ cs : List Char, words (trimEnd cs) = words cs := by
    intro cs
    conv_rhs => rw [← trimEnd_append_takeWhile cs]
    exact (words_append_blanks (fun c hc => hblank c (List.mem_reverse.mp hc)) _).symm
  rw [trim, hend, hstart]

/-! ## Lines -/

theorem newline_not_mem_lines {line cs : List Char} (h : line ∈ lines cs) :
    '\n' ∉ line := by
  unfold lines at h
  rcases List.mem_append.mp h with h | h
  · obtain ⟨piece, hpiece, rfl⟩ := List.mem_map.mp h
    have hnot := (of_mem_splitOn ((List.dropLast_subset _) hpiece)).1
    unfold dropReturn
    split
    · exact fun hmem => hnot ((List.dropLast_subset _) hmem)
    · exact hnot
  · split at h
    · cases h
    · obtain rfl := List.mem_singleton.mp h
      have hlast := List.getLast?_eq_getLast_of_ne_nil (List.splitOn_ne_nil '\n' cs)
      rw [hlast, Option.getD_some]
      exact (of_mem_splitOn (List.getLast_mem _)).1

theorem dropReturn_cases (line : List Char) :
    dropReturn line = line ∨ line = dropReturn line ++ ['\r'] := by
  unfold dropReturn
  split
  · rename_i hreturn
    exact Or.inr (List.dropLast_append_getLast? '\r' hreturn).symm
  · exact Or.inl rfl

theorem dropReturn_append {front : List Char} (back : List Char) (h : '\r' ∉ front) :
    dropReturn (front ++ back) = front ++ dropReturn back := by
  by_cases hback : back = []
  · subst hback
    have hlast : front.getLast? ≠ some '\r' := fun hc => h (List.mem_of_getLast? hc)
    have hnil : dropReturn [] = [] := rfl
    rw [List.append_nil, hnil, List.append_nil, dropReturn, if_neg hlast]
  · unfold dropReturn
    rw [List.getLast?_append_of_ne_nil _ hback, List.dropLast_append_of_ne_nil hback]
    split <;> rfl

theorem lines_append_newline {line : List Char} (h : '\n' ∉ line) (rest : List Char) :
    lines (line ++ '\n' :: rest) = dropReturn line :: lines rest := by
  have hpieces : (line ++ '\n' :: rest).splitOn '\n' = line :: rest.splitOn '\n' := by
    rw [List.splitOn_append_cons_self, List.splitOn_eq_singleton h, List.singleton_append]
  have hne := List.splitOn_ne_nil '\n' rest
  simp only [lines, hpieces, List.getLast?_cons_of_ne_nil hne, List.dropLast_cons_of_ne_nil hne,
    List.map_cons, List.cons_append]

/-- A text that starts a line starts it also without what stands behind a character that
is not in the text. -/
theorem prefix_append_iff {front line : List Char} {c : Char} (h : c ∉ front)
    (rest : List Char) : front <+: line ++ c :: rest ↔ front <+: line := by
  constructor
  · intro hfront
    rcases List.prefix_or_prefix_of_prefix hfront (List.prefix_append line (c :: rest)) with
      hline | ⟨more, rfl⟩
    · exact hline
    · rw [List.prefix_append_right_inj] at hfront
      cases more with
      | nil => simp
      | cons d more =>
          obtain ⟨rfl, -⟩ := List.cons_prefix_cons.mp hfront
          exact absurd (List.mem_append_right _ List.mem_cons_self) h
  · intro hfront
    exact hfront.trans (List.prefix_append _ _)

theorem prefix_dropReturn_iff {front : List Char} (line : List Char) (h : '\r' ∉ front) :
    front <+: dropReturn line ↔ front <+: line := by
  rcases dropReturn_cases line with hline | hline
  · rw [hline]
  · conv_rhs => rw [hline]
    exact (prefix_append_iff h []).symm

theorem trimEnd_append_return (cs : List Char) : trimEnd (cs ++ ['\r']) = trimEnd cs := by
  have hreturn : isBlank '\r' = true := rfl
  rw [trimEnd, List.reverse_append, List.reverse_singleton, List.singleton_append,
    List.dropWhile_cons_of_pos hreturn, trimEnd]

theorem trim_dropReturn (line : List Char) : trim (dropReturn line) = trim line := by
  rcases dropReturn_cases line with hline | hline
  · rw [hline]
  · conv_rhs => rw [hline, trim, trimStart, List.dropWhile_append]
    rw [trim, trimStart]
    split_ifs with hblank
    · rw [List.isEmpty_iff.mp hblank]
      rfl
    · rw [trimEnd_append_return]

end CommandSchema.Text
