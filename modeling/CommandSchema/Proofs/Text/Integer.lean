import CommandSchema.Proofs.Text.Decimal
import CommandSchema.Value
import Mathlib.Data.Char
import Mathlib.Data.List.Induction
import Mathlib.Data.List.TakeWhile
import Mathlib.Data.Nat.Digits.Defs
import Mathlib.Order.Interval.Set.Defs

/-!
# Which texts are integers

A text denotes an integer if it is one sign or none and a row of digits; the number is told
here by the positions of the digits, not by reading them.  What is read as an integer of 64 bits
are the texts that denote one.  Every other text has a first fault from the left: the digits have
left the range, or a character is no digit while they have not.
-/

namespace CommandSchema

namespace Text

/-! ## Notation -/

/-- The digits of ASCII. -/
def digits : Set Char :=
  Set.Icc '0' '9'

theorem isDigit_iff (c : Char) : c.isDigit = true ↔ c ∈ digits := by
  simp [Char.isDigit, digits, Char.le_def]

/-- The number that a row of digits stands for. -/
def numeral (ds : List Char) : ℕ :=
  Nat.ofDigits 10 (ds.map fun d => d.toNat - '0'.toNat).reverse

/-- The sign of a text, and what stands behind it. -/
inductive Signed : List Char → ℤ → List Char → Prop
  | bare {body : List Char} (plus : body.head? ≠ some '+') (minus : body.head? ≠ some '-') :
      Signed body 1 body
  | plus (body : List Char) : Signed ('+' :: body) 1 body
  | minus (body : List Char) : Signed ('-' :: body) (-1) body

/-- The integer that a text denotes, if it is one sign or none and at least one digit. -/
def Denotes (text : List Char) (n : ℤ) : Prop :=
  ∃ sign ds, Signed text sign ds ∧ ds ≠ [] ∧ (∀ d ∈ ds, d ∈ digits) ∧ n = sign * numeral ds

/-- The integers of 64 bits. -/
def range : Set ℤ :=
  {n | -2 ^ 63 ≤ n ∧ n ≤ 2 ^ 63 - 1}

/-- The first fault of a text that is no integer of 64 bits. -/
inductive Refused (text : List Char) : IntegerFault → Prop
  | empty (h : text = []) : Refused text .empty
  /-- A sign stands alone. -/
  | alone (h : text = ['+'] ∨ text = ['-']) : Refused text .invalidDigit
  | invalidDigit {sign : ℤ} {front back : List Char} {c : Char}
      (signed : Signed text sign (front ++ c :: back)) (read : ∀ d ∈ front, d ∈ digits)
      (within : sign * numeral front ∈ range) (invalid : c ∉ digits) : Refused text .invalidDigit
  | tooLarge {sign : ℤ} {front back : List Char} (signed : Signed text sign (front ++ back))
      (read : ∀ d ∈ front, d ∈ digits) (beyond : 2 ^ 63 - 1 < sign * numeral front) :
      Refused text .tooLarge
  | tooSmall {sign : ℤ} {front back : List Char} (signed : Signed text sign (front ++ back))
      (read : ∀ d ∈ front, d ∈ digits) (beyond : sign * numeral front < -2 ^ 63) :
      Refused text .tooSmall

theorem numeral_append_singleton (ds : List Char) (d : Char) :
    numeral (ds ++ [d]) = numeral ds * 10 + (d.toNat - '0'.toNat) := by
  rw [numeral, List.map_append, List.map_singleton, List.reverse_append, List.reverse_singleton,
    List.singleton_append, Nat.ofDigits_cons, numeral]
  omega

theorem ne_nil_of_beyond {sign : ℤ} {front : List Char} (h : sign * numeral front ∉ range) :
    front ≠ [] := by
  rintro rfl
  refine h ?_
  rw [numeral, List.map_nil, List.reverse_nil, Nat.ofDigits_nil]
  exact ⟨by simp, by simp⟩

theorem exists_signed (text : List Char) : ∃ sign body, Signed text sign body := by
  by_cases hplus : text.head? = some '+'
  · obtain ⟨body, rfl⟩ := List.head?_eq_some_iff.mp hplus
    exact ⟨1, body, .plus body⟩
  by_cases hminus : text.head? = some '-'
  · obtain ⟨body, rfl⟩ := List.head?_eq_some_iff.mp hminus
    exact ⟨-1, body, .minus body⟩
  · exact ⟨1, text, .bare hplus hminus⟩

/-- Every text is an integer of 64 bits or has a first fault. -/
theorem denotes_or_refused (text : List Char) :
    (∃ n ∈ range, Denotes text n) ∨ ∃ e, Refused text e := by
  obtain ⟨sign, body, hsigned⟩ := exists_signed text
  have hsplit := (List.takeWhile_append_dropWhile (p := Char.isDigit) (l := body)).symm
  have hread : ∀ d ∈ body.takeWhile Char.isDigit, d ∈ digits :=
    fun d hd => (isDigit_iff d).mp (List.mem_takeWhile_imp hd)
  have hnext : ∀ c ∈ (body.dropWhile Char.isDigit).head?, c ∉ digits := by
    intro c hc
    have hfirst := List.head?_dropWhile_not Char.isDigit body
    rw [Option.mem_def.mp hc] at hfirst
    rw [← isDigit_iff]
    simpa using hfirst
  generalize body.takeWhile Char.isDigit = front at hsplit hread
  generalize body.dropWhile Char.isDigit = back at hsplit hnext
  subst hsplit
  by_cases hsmall : sign * numeral front < -2 ^ 63
  · exact .inr ⟨_, .tooSmall hsigned hread hsmall⟩
  by_cases hlarge : 2 ^ 63 - 1 < sign * numeral front
  · exact .inr ⟨_, .tooLarge hsigned hread hlarge⟩
  have hwithin : sign * numeral front ∈ range := ⟨not_lt.mp hsmall, not_lt.mp hlarge⟩
  cases back with
  | cons c back => exact .inr ⟨_, .invalidDigit hsigned hread hwithin (hnext c rfl)⟩
  | nil =>
      rw [List.append_nil] at hsigned
      by_cases hfront : front = []
      · subst hfront
        cases hsigned with
        | bare => exact .inr ⟨_, .empty rfl⟩
        | plus => exact .inr ⟨_, .alone (.inl rfl)⟩
        | minus => exact .inr ⟨_, .alone (.inr rfl)⟩
      · exact .inl ⟨_, hwithin, sign, front, hsigned, hfront, hread, rfl⟩

/-! ## Reading digits -/

section Digits

variable {limit : ℕ} {overflow : IntegerFault} {front back : List Char} {c : Char}

theorem readDigits_digit {n : ℕ} (hc : c ∈ digits) :
    readDigits limit overflow n [c] =
      if n * 10 + (c.toNat - '0'.toNat) ≤ limit then .ok (n * 10 + (c.toNat - '0'.toNat))
      else .error overflow := by
  rw [readDigits, if_pos ((isDigit_iff c).mpr hc)]
  rfl

theorem readDigits_invalid {n : ℕ} (hc : c ∉ digits) :
    readDigits limit overflow n (c :: back) = .error .invalidDigit := by
  rw [readDigits, if_neg (by rwa [isDigit_iff])]

/-- A row of digits is read up to its end, or up to the digit that leaves the limit. -/
theorem readDigits_eq_ite (h : ∀ d ∈ front, d ∈ digits) :
    readDigits limit overflow 0 front =
      if numeral front ≤ limit then .ok (numeral front) else .error overflow := by
  induction front using List.reverseRecOn with
  | nil => rfl
  | append_singleton front d ih =>
      rw [List.forall_mem_append, List.forall_mem_singleton] at h
      have hvalue := numeral_append_singleton front d
      rw [readDigits_append, ih h.1]
      by_cases hfront : numeral front ≤ limit
      · rw [if_pos hfront, Except.bind, readDigits_digit h.2, hvalue]
      · have hbeyond : ¬numeral (front ++ [d]) ≤ limit := by omega
        rw [if_neg hfront, if_neg hbeyond]
        rfl

theorem readDigits_of_beyond (h : ∀ d ∈ front, d ∈ digits) (hbeyond : limit < numeral front) :
    readDigits limit overflow 0 (front ++ back) = .error overflow := by
  rw [readDigits_append, readDigits_eq_ite h, if_neg (not_le.mpr hbeyond)]
  rfl

theorem readDigits_of_invalid (h : ∀ d ∈ front, d ∈ digits) (hwithin : numeral front ≤ limit)
    (hc : c ∉ digits) :
    readDigits limit overflow 0 (front ++ c :: back) = .error .invalidDigit := by
  rw [readDigits_append, readDigits_eq_ite h, if_pos hwithin, Except.bind, readDigits_invalid hc]

end Digits

/-! ## Reading integers -/

section Integers

variable {text body : List Char} {sign : ℤ}

/-- The limit of the digits behind a sign, and the fault of digits that pass it. -/
inductive Limited : ℤ → ℕ → IntegerFault → Prop
  | positive : Limited 1 (2 ^ 63 - 1) .tooLarge
  | negative : Limited (-1) (2 ^ 63) .tooSmall

theorem readInteger_signed (h : Signed text sign body) (hbody : body ≠ []) :
    ∃ limit overflow, Limited sign limit overflow ∧ readInteger (String.ofList text) =
      (readDigits limit overflow 0 body).map fun n => Int64.ofInt (sign * n) := by
  unfold readInteger
  rw [String.toList_ofList]
  cases h with
  | bare plus minus =>
      refine ⟨_, _, .positive, ?_⟩
      split
      · exact absurd rfl hbody
      · exact absurd rfl plus
      · exact absurd rfl minus
      · rw [readUnsigned, if_neg hbody]
        simp
  | plus =>
      refine ⟨_, _, .positive, ?_⟩
      simp [readUnsigned, hbody]
  | minus =>
      refine ⟨_, _, .negative, ?_⟩
      simp [readNegative, hbody]

theorem readInteger_of_denotes {n : ℤ} (h : Denotes text n) (hn : n ∈ range) :
    readInteger (String.ofList text) = .ok (Int64.ofInt n) := by
  obtain ⟨sign, ds, hsigned, hne, hdigits, rfl⟩ := h
  obtain ⟨limit, overflow, hlimit, hread⟩ := readInteger_signed hsigned hne
  have hwithin : numeral ds ≤ limit := by
    obtain ⟨hlow, hhigh⟩ := hn
    cases hlimit <;> omega
  rw [hread, readDigits_eq_ite hdigits, if_pos hwithin]
  rfl

theorem readInteger_of_refused {e : IntegerFault} (h : Refused text e) :
    readInteger (String.ofList text) = .error e := by
  cases h with
  | empty h =>
      subst h
      rfl
  | alone h => rcases h with rfl | rfl <;> rfl
  | @invalidDigit sign front back c signed read within invalid =>
      obtain ⟨limit, overflow, hlimit, hread⟩ := readInteger_signed signed (by simp)
      have hwithin : numeral front ≤ limit := by
        obtain ⟨hlow, hhigh⟩ := within
        cases hlimit <;> omega
      rw [hread, readDigits_of_invalid read hwithin invalid]
      rfl
  | @tooLarge sign front back signed read beyond =>
      have hne := List.append_ne_nil_of_left_ne_nil
        (ne_nil_of_beyond fun hrange => hrange.2.not_gt beyond) back
      obtain ⟨limit, overflow, hlimit, hread⟩ := readInteger_signed signed hne
      cases hlimit with
      | positive =>
          rw [hread, readDigits_of_beyond read (by omega)]
          rfl
      | negative => omega
  | @tooSmall sign front back signed read beyond =>
      have hne := List.append_ne_nil_of_left_ne_nil
        (ne_nil_of_beyond fun hrange => hrange.1.not_gt beyond) back
      obtain ⟨limit, overflow, hlimit, hread⟩ := readInteger_signed signed hne
      cases hlimit with
      | positive => omega
      | negative =>
          rw [hread, readDigits_of_beyond read (by omega)]
          rfl

theorem mem_range_toInt (n : Int64) : n.toInt ∈ range :=
  ⟨n.le_toInt, Int.le_sub_one_of_lt n.toInt_lt⟩

theorem toInt_ofInt {n : ℤ} (h : n ∈ range) : (Int64.ofInt n).toInt = n :=
  Int64.toInt_ofInt_of_le h.1 (Int.lt_of_le_sub_one h.2)

theorem readInteger_eq_ok_iff {s : String} {n : Int64} :
    readInteger s = .ok n ↔ Denotes s.toList n.toInt := by
  constructor
  · intro h
    rw [← String.ofList_toList (s := s)] at h
    rcases denotes_or_refused s.toList with ⟨m, hm, hdenotes⟩ | ⟨e, hrefused⟩
    · rw [readInteger_of_denotes hdenotes hm] at h
      rwa [← Except.ok.inj h, toInt_ofInt hm]
    · rw [readInteger_of_refused hrefused] at h
      cases h
  · intro h
    have hread := readInteger_of_denotes h (mem_range_toInt n)
    rwa [String.ofList_toList, Int64.ofInt_toInt] at hread

theorem readInteger_eq_error_iff {s : String} {e : IntegerFault} :
    readInteger s = .error e ↔ Refused s.toList e := by
  constructor
  · intro h
    rw [← String.ofList_toList (s := s)] at h
    rcases denotes_or_refused s.toList with ⟨m, hm, hdenotes⟩ | ⟨e', hrefused⟩
    · rw [readInteger_of_denotes hdenotes hm] at h
      cases h
    · rw [readInteger_of_refused hrefused] at h
      rwa [← Except.error.inj h]
  · intro h
    have hread := readInteger_of_refused h
    rwa [String.ofList_toList] at hread

end Integers

end Text

/-! ## Values -/

theorem ValueType.convert_int_eq_ok_iff {s : String} {v : Value} :
    ValueType.int.convert s = .ok v ↔ ∃ n, v = .int n ∧ Text.readInteger s = .ok n := by
  rw [convert]
  cases Text.readInteger s with
  | ok n => simp [Except.map, eq_comm]
  | error e => simp [Except.map]

theorem ValueType.convert_int_eq_error_iff {s : String} {e : Text.IntegerFault} :
    ValueType.int.convert s = .error e ↔ Text.readInteger s = .error e := by
  rw [convert]
  cases Text.readInteger s <;> simp [Except.map]

/-- A token converts to an integer exactly if it denotes one that has 64 bits, and to that one.
Every other token is rejected with its first fault from the left: as too large or too small only if
digits alone have left the range.  What an integer is shown as converts to it. -/
theorem convert_int_exact (s : String) :
    (∀ n : ℤ, (∃ v : Int64, v.toInt = n ∧ ValueType.int.convert s = .ok (.int v)) ↔
      Text.Denotes s.toList n ∧ -2 ^ 63 ≤ n ∧ n ≤ 2 ^ 63 - 1) ∧
    (∀ v, ValueType.int.convert s = .ok v → ∃ n, v = .int n) ∧
    ((∃ e, ValueType.int.convert s = .error e) ↔
      ¬∃ n, Text.Denotes s.toList n ∧ -2 ^ 63 ≤ n ∧ n ≤ 2 ^ 63 - 1) ∧
    (∀ e, ValueType.int.convert s = .error e ↔ Text.Refused s.toList e) ∧
    ∀ n : Int64, ValueType.int.convert (Value.int n).render = .ok (.int n) := by
  have hvalue : ∀ n : ℤ, (∃ v : Int64, v.toInt = n ∧ ValueType.int.convert s = .ok (.int v)) ↔
      Text.Denotes s.toList n ∧ -2 ^ 63 ≤ n ∧ n ≤ 2 ^ 63 - 1 := by
    intro n
    simp only [ValueType.convert_int_eq_ok_iff, Value.int.injEq, exists_eq_left',
      Text.readInteger_eq_ok_iff]
    constructor
    · rintro ⟨v, rfl, hv⟩
      exact ⟨hv, Text.mem_range_toInt v⟩
    · rintro ⟨hdenotes, hn⟩
      have hself : (Int64.ofInt n).toInt = n := Text.toInt_ofInt hn
      exact ⟨_, hself, by rwa [hself]⟩
  refine ⟨hvalue, ?_, ?_, ?_, ?_⟩
  · intro v hv
    obtain ⟨n, rfl, -⟩ := ValueType.convert_int_eq_ok_iff.mp hv
    exact ⟨n, rfl⟩
  · simp only [← hvalue]
    constructor
    · rintro ⟨e, he⟩ ⟨n, v, -, hv⟩
      rw [he] at hv
      cases hv
    · intro hnone
      cases hconvert : ValueType.int.convert s with
      | error e => exact ⟨e, rfl⟩
      | ok v =>
          obtain ⟨n, rfl, -⟩ := ValueType.convert_int_eq_ok_iff.mp hconvert
          exact absurd ⟨n.toInt, n, rfl, hconvert⟩ hnone
  · intro e
    rw [ValueType.convert_int_eq_error_iff, Text.readInteger_eq_error_iff]
  · intro n
    exact ValueType.convert_int_eq_ok_iff.mpr ⟨n, rfl, Text.readInteger_decimal n⟩

/-- The limits are not symmetric, and the digit that passes one is noticed before a later
character. -/
example : ValueType.int.convert "-9223372036854775808" = .ok (.int Int64.minValue) ∧
    ValueType.int.convert "9223372036854775808x" = .error .tooLarge ∧
    ValueType.int.convert "922337203685477580x8" = .error .invalidDigit := by
  decide

end CommandSchema
