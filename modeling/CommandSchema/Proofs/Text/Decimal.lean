import CommandSchema.Text.Decimal
import Mathlib.Algebra.Ring.Nat
import Mathlib.Algebra.Ring.Int.Defs
import Mathlib.Data.List.Basic

/-!
# Integers are read as they are written

The digits of a number lead the reader to the number, as long as the number is within the
limit, and every integer of 64 bits is.
-/

namespace CommandSchema.Text

section Digits

variable {limit : ℕ} {overflow : IntegerFault}

theorem readDigits_append (cs cs' : List Char) (n : ℕ) :
    readDigits limit overflow n (cs ++ cs') =
      (readDigits limit overflow n cs).bind fun m => readDigits limit overflow m cs' := by
  induction cs generalizing n with
  | nil => rfl
  | cons c cs ih =>
      simp only [List.cons_append, readDigits]
      split_ifs
      · exact ih _
      · rfl
      · rfl

theorem readDigits_digitChar {n d : ℕ} (hd : d < 10) (h : n * 10 + d ≤ limit) :
    readDigits limit overflow n [d.digitChar] = .ok (n * 10 + d) := by
  have hdigit : d.digitChar.isDigit = true := by simp [Nat.isDigit_digitChar, hd]
  have hvalue : d.digitChar.toNat - '0'.toNat = d := Nat.toNat_digitChar_sub_48_of_lt_ten hd
  rw [readDigits, if_pos hdigit, hvalue, if_pos h]
  rfl

theorem readDigits_toDigits {n : ℕ} (h : n ≤ limit) :
    readDigits limit overflow 0 (Nat.toDigits 10 n) = .ok n := by
  induction n using Nat.strongRecOn with
  | ind n ih =>
      by_cases hn : n < 10
      · rw [Nat.toDigits_of_lt_base hn, readDigits_digitChar hn (by omega)]
        simp
      · have hdigits := Nat.toDigits_of_base_le (by decide : 1 < 10) (Nat.le_of_not_lt hn)
        have hfront := ih (n / 10) (by omega) (by omega)
        have hvalue : n / 10 * 10 + n % 10 = n := by omega
        have hlast : n % 10 < 10 := Nat.mod_lt n (by decide)
        rw [hdigits, readDigits_append, hfront, Except.bind,
          readDigits_digitChar hlast (by omega), hvalue]

end Digits

theorem readUnsigned_toDigits {n : ℕ} (h : n < 2 ^ 63) :
    readUnsigned (Nat.toDigits 10 n) = .ok (Int64.ofInt n) := by
  have hlimit : n ≤ 1 <<< 63 - 1 := Nat.le_sub_one_of_lt h
  rw [readUnsigned, if_neg Nat.toDigits_ne_nil, readDigits_toDigits hlimit]
  rfl

theorem readNegative_toDigits {n : ℕ} (h : n ≤ 2 ^ 63) :
    readNegative (Nat.toDigits 10 n) = .ok (Int64.ofInt (-n)) := by
  have hlimit : n ≤ 1 <<< 63 := h
  rw [readNegative, if_neg Nat.toDigits_ne_nil, readDigits_toDigits hlimit]
  rfl

/-- No digit is taken for a sign. -/
theorem readInteger_toDigits (n : ℕ) :
    readInteger (String.ofList (Nat.toDigits 10 n)) = readUnsigned (Nat.toDigits 10 n) := by
  have hdigit : ∀ c ∈ Nat.toDigits 10 n, c.isDigit = true := by
    intro c hc
    exact Nat.isDigit_of_mem_toDigits (by decide) (by decide) hc
  unfold readInteger
  rw [String.toList_ofList]
  split
  · rename_i hnil
    exact absurd hnil Nat.toDigits_ne_nil
  · rename_i hplus
    rw [hplus] at hdigit
    exact absurd (hdigit '+' List.mem_cons_self) (by decide)
  · rename_i hminus
    rw [hminus] at hdigit
    exact absurd (hdigit '-' List.mem_cons_self) (by decide)
  · rfl

/-- Every integer of 64 bits is read back from its decimal form, the smallest included. -/
theorem readInteger_decimal (n : Int64) : readInteger (decimal n.toInt) = .ok n := by
  have hlow := n.le_toInt
  have hhigh := n.toInt_lt
  have hself := Int64.ofInt_toInt n
  cases hn : n.toInt with
  | ofNat m =>
      rw [hn] at hhigh hself
      have hm : m < 2 ^ 63 := Int.ofNat_lt.mp hhigh
      rw [decimal, readInteger_toDigits, readUnsigned_toDigits hm]
      exact congrArg Except.ok hself
  | negSucc m =>
      rw [hn] at hlow hself
      have hm : m + 1 ≤ 2 ^ 63 := by omega
      have hread : readInteger (decimal (.negSucc m)) = readNegative (Nat.toDigits 10 (m + 1)) := by
        simp [readInteger, decimal]
      rw [hread, readNegative_toDigits hm]
      exact congrArg Except.ok hself

end CommandSchema.Text
