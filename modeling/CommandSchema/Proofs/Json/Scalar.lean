import CommandSchema.Json.Reading
import CommandSchema.Json.Writer
import Mathlib.Algebra.Ring.Int.Defs
import Mathlib.Algebra.Ring.Nat
import Mathlib.Data.List.Basic

/-!
# Strings and numbers are read as they are written

Every character of a string is one piece of it, escaped or not, and the closing mark is the first
one that stands alone.  The digits of a number are followed by something that no number goes on
with.
-/

namespace CommandSchema.Json

/-! ## Strings -/

theorem hexDigit?_digitChar {d : ℕ} (h : d < 16) : hexDigit? d.digitChar = some d := by
  have hall : ∀ d < 16, hexDigit? (Nat.digitChar d) = some d := by decide
  exact hall d h

theorem pieces?_shortEscape {e d : Char} (hcode : e ≠ 'u') (he : shortEscape? e = some d)
    (cs : List Char) :
    pieces? ('\\' :: e :: cs) = (pieces? cs).map fun p => (.char d :: p.1, p.2) := by
  rw [pieces?]
  · cases pieces? cs <;> simp [he]
  · rintro _ _ _ _ _ rfl
    exact absurd rfl hcode

/-- A code whose first two digits are zero. -/
theorem pieces?_code {a b : ℕ} (ha : a < 16) (hb : b < 16) (cs : List Char) :
    pieces? ('\\' :: 'u' :: '0' :: '0' :: a.digitChar :: b.digitChar :: cs) =
      (pieces? cs).map fun p => (.char (Char.ofNat (a * 16 + b)) :: p.1, p.2) := by
  have hzero : hexDigit? '0' = some 0 := by decide
  have hunit : Piece.ofUnit (a * 16 + b) = .char (Char.ofNat (a * 16 + b)) := by
    unfold Piece.ofUnit
    rw [if_neg (by omega), if_neg (by omega)]
  rw [pieces?]
  cases pieces? cs <;>
    simp [hzero, hexDigit?_digitChar ha, hexDigit?_digitChar hb, hunit]

/-- A character that is written as it is. -/
theorem pieces?_plain {c : Char} (hmark : c ≠ '"') (hbackslash : c ≠ '\\')
    (hcontrol : ¬c.toNat < 0x20) (cs : List Char) :
    pieces? (c :: cs) = (pieces? cs).map fun p => (.char c :: p.1, p.2) := by
  rw [pieces?]
  · rw [if_neg (by simp [hcontrol, hbackslash])]
    cases pieces? cs <;> rfl
  · rintro rfl
    exact hmark rfl
  · rintro _ _ _ _ _ rfl
    exact absurd rfl hbackslash
  · rintro _ _ rfl
    exact absurd rfl hbackslash

/-- What is written for a character is read as this one character. -/
theorem pieces?_escape (c : Char) (cs : List Char) :
    pieces? (escape c ++ cs) = (pieces? cs).map fun p => (.char c :: p.1, p.2) := by
  unfold escape
  by_cases hmark : c = '"'
  · rw [if_pos hmark, hmark]
    exact pieces?_shortEscape (by decide) rfl cs
  rw [if_neg hmark]
  by_cases hbackslash : c = '\\'
  · rw [if_pos hbackslash, hbackslash]
    exact pieces?_shortEscape (by decide) rfl cs
  rw [if_neg hbackslash]
  by_cases hback : c = '\x08'
  · rw [if_pos hback, hback]
    exact pieces?_shortEscape (by decide) rfl cs
  rw [if_neg hback]
  by_cases hfeed : c = '\x0c'
  · rw [if_pos hfeed, hfeed]
    exact pieces?_shortEscape (by decide) rfl cs
  rw [if_neg hfeed]
  by_cases hline : c = '\n'
  · rw [if_pos hline, hline]
    exact pieces?_shortEscape (by decide) rfl cs
  rw [if_neg hline]
  by_cases hreturn : c = '\r'
  · rw [if_pos hreturn, hreturn]
    exact pieces?_shortEscape (by decide) rfl cs
  rw [if_neg hreturn]
  by_cases htab : c = '\t'
  · rw [if_pos htab, htab]
    exact pieces?_shortEscape (by decide) rfl cs
  rw [if_neg htab]
  by_cases hlow : c.toNat < 0x10
  · have hdigit : Text.hex c.toNat = [c.toNat.digitChar] := Nat.toDigits_of_lt_base hlow
    have hcode := pieces?_code (by decide : 0 < 16) hlow cs
    rw [Nat.zero_mul, Nat.zero_add, Char.ofNat_toNat] at hcode
    rw [if_pos hlow, hdigit]
    exact hcode
  rw [if_neg hlow]
  by_cases hcontrol : c.toNat < 0x20
  · have hone : c.toNat / 16 = 1 := by omega
    have hvalue : 1 * 16 + c.toNat % 16 = c.toNat := by omega
    have hdigits : Text.hex c.toNat = [Nat.digitChar 1, (c.toNat % 16).digitChar] := by
      rw [Text.hex, Nat.toDigits_of_base_le (by decide) (by omega), hone]
      rfl
    have hcode := pieces?_code (by decide : 1 < 16) (Nat.mod_lt c.toNat (by decide)) cs
    rw [hvalue, Char.ofNat_toNat] at hcode
    rw [if_pos hcontrol, hdigits]
    exact hcode
  rw [if_neg hcontrol]
  exact pieces?_plain hmark hbackslash hcontrol cs

theorem pieces?_escapes (cs rest : List Char) :
    pieces? (cs.flatMap escape ++ '"' :: rest) = some (cs.map .char, rest) := by
  induction cs with
  | nil => simp [pieces?]
  | cons c cs ih =>
      rw [List.flatMap_cons, List.append_assoc, pieces?_escape, ih]
      rfl

theorem joinPieces?_map_char (cs : List Char) : joinPieces? (cs.map .char) = some cs := by
  induction cs with
  | nil => rfl
  | cons c cs ih => simp [joinPieces?, ih]

/-- A string is read back after its opening mark. -/
theorem string?_escapes (s : String) (rest : List Char) :
    string? (s.toList.flatMap escape ++ '"' :: rest) = some (some s, rest) := by
  simp [string?, pieces?_escapes, joinPieces?_map_char]

/-! ## Numbers -/

/-- Whether a number is over where a text goes on. -/
def EndsNumber (rest : List Char) : Prop :=
  ∀ c ∈ rest.head?, c.isDigit = false ∧ c ≠ '.' ∧ c ≠ 'e' ∧ c ≠ 'E'

theorem digits_append {ds rest : List Char} (hds : ∀ c ∈ ds, c.isDigit = true)
    (hrest : EndsNumber rest) : digits (ds ++ rest) = (ds, rest) := by
  have hstop : rest.takeWhile Char.isDigit = [] ∧ rest.dropWhile Char.isDigit = rest := by
    cases rest with
    | nil => exact ⟨rfl, rfl⟩
    | cons c rest => simp [(hrest c rfl).1]
  rw [digits, List.takeWhile_append_of_pos hds, List.dropWhile_append_of_pos hds, hstop.1,
    hstop.2, List.append_nil]

/-- No number but zero starts with the digit zero. -/
theorem head?_toDigits_ne_zero {n : ℕ} (h : 0 < n) : (Nat.toDigits 10 n).head? ≠ some '0' := by
  induction n using Nat.strongRecOn with
  | ind n ih =>
      by_cases hn : n < 10
      · have hall : ∀ d < 10, 0 < d → Nat.digitChar d ≠ '0' := by decide
        rw [Nat.toDigits_of_lt_base hn]
        simpa using hall n hn h
      · have hdigits := Nat.toDigits_of_base_le (by decide : 1 < 10) (Nat.le_of_not_lt hn)
        rw [hdigits, List.head?_append_of_ne_nil _ Nat.toDigits_ne_nil]
        exact ih (n / 10) (by omega) (by omega)

theorem wholePart?_toDigits (n : ℕ) {rest : List Char} (hrest : EndsNumber rest) :
    wholePart? (Nat.toDigits 10 n ++ rest) = some (Nat.toDigits 10 n, rest) := by
  have hdigit : ∀ c ∈ Nat.toDigits 10 n, c.isDigit = true := fun c hc =>
    Nat.isDigit_of_mem_toDigits (by decide) (by decide) hc
  rw [wholePart?, digits_append hdigit hrest]
  split
  · rename_i hnil
    exact absurd (congrArg Prod.fst hnil) Nat.toDigits_ne_nil
  · rename_i c cs tail hzero
    have hfront : Nat.toDigits 10 n = '0' :: c :: cs := congrArg Prod.fst hzero
    rcases Nat.eq_zero_or_pos n with rfl | hpos
    · rw [Nat.toDigits_zero] at hfront
      cases hfront
    · exact absurd (by rw [hfront]; rfl) (head?_toDigits_ne_zero hpos)
  · rfl

theorem fractionPart?_of_endsNumber {rest : List Char} (h : EndsNumber rest) :
    fractionPart? rest = some (none, rest) := by
  unfold fractionPart?
  split
  · exact absurd rfl (h '.' rfl).2.1
  · rfl

theorem exponentPart?_of_endsNumber {rest : List Char} (h : EndsNumber rest) :
    exponentPart? rest = some (none, rest) := by
  cases rest with
  | nil => rfl
  | cons c rest =>
      obtain ⟨-, -, hsmall, hlarge⟩ := h c rfl
      simp [exponentPart?, hsmall, hlarge]

theorem toDigits_head (n : ℕ) : ∃ c cs, Nat.toDigits 10 n = c :: cs ∧ c.isDigit = true := by
  obtain ⟨c, cs, hcs⟩ := List.exists_cons_of_ne_nil (Nat.toDigits_ne_nil (b := 10) (n := n))
  have hdigit := Nat.isDigit_of_mem_toDigits (b := 10) (n := n) (c := c) (by decide) (by decide)
  exact ⟨c, cs, hcs, hdigit (by rw [hcs]; exact List.mem_cons_self)⟩

theorem decimal_head (n : ℤ) :
    ∃ c cs, (Text.decimal n).toList = c :: cs ∧ (c = '-' ∨ c.isDigit = true) := by
  cases n with
  | ofNat m =>
      obtain ⟨c, cs, hcs, hc⟩ := toDigits_head m
      exact ⟨c, cs, by rw [Text.decimal, String.toList_ofList, hcs], Or.inr hc⟩
  | negSucc m => exact ⟨'-', _, by rw [Text.decimal, String.toList_ofList], Or.inl rfl⟩

/-- The sign is told apart from the digits. -/
theorem numberText?_toDigits (isNegative : Bool) (n : ℕ) {rest : List Char}
    (hrest : EndsNumber rest) :
    numberText? ((if isNegative then ['-'] else []) ++ (Nat.toDigits 10 n ++ rest)) =
      some (⟨isNegative, Nat.toDigits 10 n, none, none⟩, rest) := by
  have hwhole := wholePart?_toDigits n hrest
  have hfraction := fractionPart?_of_endsNumber hrest
  have hexponent := exponentPart?_of_endsNumber hrest
  cases isNegative with
  | true => simp [numberText?, hwhole, hfraction, hexponent]
  | false =>
      unfold numberText?
      split
      rename_i isNegative cs hsign
      split at hsign
      · rename_i h
        obtain ⟨c, cs, hcs, hc⟩ := toDigits_head n
        rw [if_neg Bool.false_ne_true, List.nil_append, hcs] at h
        obtain ⟨rfl, -⟩ := List.cons.inj h
        exact absurd hc (by decide)
      · obtain ⟨rfl, rfl⟩ := Prod.mk.inj hsign
        simp [hwhole, hfraction, hexponent]

theorem naturalOf_toDigits (n : ℕ) : naturalOf (Nat.toDigits 10 n) = n := by
  have hread := Nat.ofDigitChars_ten_toDigits (n := n)
  rw [Nat.ofDigitChars_eq_foldl] at hread
  simpa only [naturalOf, Nat.mul_comm] using hread

/-- The integers that have a type of 64 bits, with a sign or without one. -/
def IsWord (n : ℤ) : Prop :=
  -2 ^ 63 ≤ n ∧ n < 2 ^ 64

/-- An integer of 64 bits is read back, and is no double. -/
theorem number_decimal {n : ℤ} (hn : IsWord n) {rest : List Char} (hrest : EndsNumber rest) :
    number ((Text.decimal n).toList ++ rest) = (.number (.integer n), some rest) := by
  obtain ⟨hlow, hhigh⟩ := hn
  cases n with
  | ofNat m =>
      have hm : m < UInt64.size := Int.ofNat_lt.mp hhigh
      have hread := numberText?_toDigits false m hrest
      have hnumeral : NumberText.numeral ⟨false, Nat.toDigits 10 m, none, none⟩ =
          .integer m := by
        simp [NumberText.numeral, naturalOf_toDigits, hm]
      rw [if_neg Bool.false_ne_true, List.nil_append] at hread
      rw [number, Text.decimal, String.toList_ofList, hread]
      simp only [hnumeral]
      rfl
  | negSucc m =>
      have hm : m + 1 ≤ 1 <<< 63 := by
        rw [Int.negSucc_eq] at hlow
        omega
      have hread := numberText?_toDigits true (m + 1) hrest
      have hnumeral : NumberText.numeral ⟨true, Nat.toDigits 10 (m + 1), none, none⟩ =
          .integer (.negSucc m) := by
        unfold NumberText.numeral
        rw [naturalOf_toDigits, if_pos ⟨rfl, rfl⟩, if_neg (by simp), if_pos ⟨rfl, by simp, hm⟩]
        rfl
      rw [if_pos rfl, List.singleton_append] at hread
      rw [number, Text.decimal, String.toList_ofList, List.cons_append, hread]
      simp only [hnumeral]

end CommandSchema.Json
