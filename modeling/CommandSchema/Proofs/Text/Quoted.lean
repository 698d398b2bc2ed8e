import CommandSchema.Text.Decimal
import CommandSchema.Text.Quoted
import Mathlib.Algebra.Ring.Int.Defs
import Mathlib.Data.List.Basic

/-!
# Texts on one line

A text that is quoted or a number that is written in decimal has no line feed in it.
-/

namespace CommandSchema.Text

/-! ## Digits -/

theorem mem_hex {c : Char} {n : ℕ} (h : c ∈ hex n) : ∃ d < 16, c = d.digitChar := by
  rw [hex] at h
  induction n using Nat.strongRecOn with
  | ind n ih =>
      by_cases hn : n < 16
      · rw [Nat.toDigits_of_lt_base hn, List.mem_singleton] at h
        exact ⟨n, hn, h⟩
      · rw [Nat.toDigits_of_base_le (by decide) (Nat.le_of_not_lt hn), List.mem_append,
          List.mem_singleton] at h
        rcases h with h | h
        · exact ih (n / 16) (by omega) h
        · exact ⟨n % 16, Nat.mod_lt n (by decide), h⟩

theorem newline_not_mem_hex (n : ℕ) : '\n' ∉ hex n := by
  have hdigits : ∀ d < 16, '\n' ≠ d.digitChar := by decide
  intro h
  obtain ⟨d, hd, hc⟩ := mem_hex h
  exact hdigits d hd hc

theorem newline_not_mem_toDigits (n : ℕ) : '\n' ∉ Nat.toDigits 10 n := by
  intro h
  have hdigit := Nat.isDigit_of_mem_toDigits (by decide) (by decide) h
  exact absurd hdigit (by decide)

/-! ## Texts without a line feed -/

/-- A text that can be a line. -/
def IsLine (text : String) : Prop :=
  '\n' ∉ text.toList

instance (text : String) : Decidable (IsLine text) :=
  inferInstanceAs (Decidable (¬_))

theorem isLine_append {front back : String} :
    IsLine (front ++ back) ↔ IsLine front ∧ IsLine back := by
  rw [IsLine, String.toList_append, List.mem_append, not_or, IsLine, IsLine]

theorem isLine_around {front text back : String} (hfront : IsLine front) (h : IsLine text)
    (hback : IsLine back) : IsLine (front ++ text ++ back) :=
  isLine_append.mpr ⟨isLine_append.mpr ⟨hfront, h⟩, hback⟩

theorem isLine_join {texts : List String} :
    IsLine (String.join texts) ↔ ∀ text ∈ texts, IsLine text := by
  simp [IsLine, String.toList_join]

theorem isLine_intercalate {between : String} {texts : List String} (hbetween : IsLine between)
    (h : ∀ text ∈ texts, IsLine text) : IsLine (between.intercalate texts) := by
  rw [IsLine, String.toList_intercalate]
  induction texts with
  | nil => exact List.not_mem_nil
  | cons text texts ih =>
      rw [List.forall_mem_cons] at h
      cases texts with
      | nil =>
          rw [List.map_singleton, List.intercalate_singleton]
          exact h.1
      | cons next texts =>
          rw [List.map_cons, List.map_cons, List.intercalate_cons_cons, List.mem_append,
            List.mem_append, not_or, not_or]
          exact ⟨⟨h.1, hbetween⟩, ih h.2⟩

/-- A text that is put together from lines is cut into the same lines, with nothing behind the last
line feed. -/
theorem splitOn_join_lines {texts : List String} (h : ∀ text ∈ texts, IsLine text) :
    (String.join (texts.map (· ++ "\n"))).toList.splitOn '\n' = texts.map String.toList ++ [[]] := by
  have hnewline : "\n".toList = ['\n'] := rfl
  rw [String.toList_join]
  induction texts with
  | nil => rfl
  | cons text texts ih =>
      rw [List.forall_mem_cons] at h
      rw [List.map_cons, List.flatMap_cons, String.toList_append, hnewline, List.append_assoc,
        List.singleton_append, List.splitOn_append_cons_self_of_not_mem h.1, ih h.2]
      rfl

theorem isLine_decimal (n : ℤ) : IsLine (decimal n) := by
  cases n with
  | ofNat n =>
      rw [IsLine, decimal, String.toList_ofList]
      exact newline_not_mem_toDigits n
  | negSucc n =>
      rw [IsLine, decimal, String.toList_ofList, List.mem_cons, not_or]
      exact ⟨by decide, newline_not_mem_toDigits (n + 1)⟩

theorem newline_not_mem_escape (mark c : Char) : '\n' ∉ escape mark c := by
  by_cases hc : c = '\n'
  · subst hc
    rw [escape, if_neg (by decide), if_neg (by decide), if_neg (by decide), if_pos rfl]
    decide
  · have hother := Ne.symm hc
    unfold escape
    split_ifs <;> simp [hother, newline_not_mem_hex]

theorem isLine_quote (text : String) : IsLine (quote text) := by
  rw [IsLine, quote, String.toList_ofList]
  simp [newline_not_mem_escape]

end CommandSchema.Text
