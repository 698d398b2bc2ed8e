import CommandSchema.Schema.Consistency
import Mathlib.Data.List.Basic

/-!
# Characters of names

What the rules for short and long forms say about single characters.  A form is
never confused with the dashes before it or with the `=` behind it.
-/

namespace CommandSchema

/-! ## Letters -/

theorem isUpper_iff (c : Char) : c.isUpper = true ↔ 'A' ≤ c ∧ c ≤ 'Z' :=
  decide_eq_true_iff

theorem isLower_iff (c : Char) : c.isLower = true ↔ 'a' ≤ c ∧ c ≤ 'z' :=
  Bool.and_eq_true_iff.trans (and_congr decide_eq_true_iff decide_eq_true_iff)

theorem isAlpha_iff_isUpper_or_isLower (c : Char) :
    c.isAlpha = true ↔ c.isUpper = true ∨ c.isLower = true :=
  Bool.or_eq_true_iff

/-! ## Forms -/

/-- A character other than the separator lies in one of the pieces of a list. -/
theorem exists_mem_splitOn {sep c : Char} (hc : c ≠ sep) :
    ∀ {cs : List Char}, c ∈ cs → ∃ word ∈ cs.splitOn sep, c ∈ word := by
  intro cs
  induction cs with
  | nil => simp
  | cons d cs ih =>
      intro hmem
      rw [List.splitOn_cons_eq_if_modifyHead]
      obtain ⟨word, words, hwords⟩ := List.exists_cons_of_ne_nil (List.splitOn_ne_nil sep cs)
      rcases List.mem_cons.mp hmem with rfl | hmem
      · rw [if_neg (by simpa using hc), hwords, List.modifyHead_cons]
        exact ⟨c :: word, List.mem_cons_self, List.mem_cons_self⟩
      · obtain ⟨piece, hpiece, hcpiece⟩ := ih hmem
        split
        · exact ⟨piece, List.mem_cons_of_mem _ hpiece, hcpiece⟩
        · rw [hwords, List.modifyHead_cons]
          rw [hwords] at hpiece
          rcases List.mem_cons.mp hpiece with rfl | hpiece
          · exact ⟨d :: piece, List.mem_cons_self, List.mem_cons_of_mem _ hcpiece⟩
          · exact ⟨piece, List.mem_cons_of_mem _ hpiece, hcpiece⟩

theorem isAlphanum_of_mem_longName {l : String} (hl : isLongName l = true)
    {c : Char} (hc : c ∈ l.toList) (hdash : c ≠ '-') : c.isAlphanum = true := by
  simp only [isLongName, Bool.and_eq_true, List.all_eq_true] at hl
  obtain ⟨word, hword, hcword⟩ := exists_mem_splitOn hdash hc
  exact (hl.2 word hword).2 c hcword

theorem equals_not_mem_longName {l : String} (hl : isLongName l = true) :
    '=' ∉ l.toList := by
  intro hmem
  exact absurd (isAlphanum_of_mem_longName hl hmem (by decide)) (by decide)

theorem longName_ne_empty {l : String} (hl : isLongName l = true) : l ≠ "" := by
  rintro rfl
  exact absurd hl (by decide)

theorem ne_dash_of_isShortName {c : Char} (hc : isShortName c = true) : c ≠ '-' := by
  rintro rfl
  exact absurd hc (by decide)

end CommandSchema
