import CommandSchema.Document.Encoding
import CommandSchema.Proofs.Json.Record

/-!
# Values are told apart by their form

A value is written without its sort, and the sort is found again by the form: a truth value, a
number, a string or a list.  A number is always read as an integer, so no text is read as a count.
-/

namespace CommandSchema

open Json

namespace Value

/-- The value that is read where a value was written. A count comes back as an integer. -/
def readBack : Value → Value
  | count n => .int (Int64.ofNat n.toNat)
  | v => v

theorem readBack_of_not_count {v : Value} (h : ∀ n, v ≠ .count n) : v.readBack = v := by
  cases v with
  | count n => exact absurd rfl (h n)
  | _ => rfl

theorem map_readBack_of_not_count {value : Option Value} (h : ∀ n, value ≠ some (.count n)) :
    value.map readBack = value := by
  cases value with
  | none => rfl
  | some v =>
      have hv : v.readBack = v := readBack_of_not_count fun n hn => h n (congrArg some hn)
      rw [Option.map_some, hv]

/-- A count is small enough for an integer of 64 bits. -/
theorem toInt_ofNat_count (n : UInt32) : (Int64.ofNat n.toNat).toInt = n.toNat :=
  Int64.toInt_ofNat_of_lt (Nat.lt_trans n.toNat_lt (by decide))

theorem fits_document (v : Value) : v.document.Fits 1 := by
  cases v with
  | bool b => exact .bool b
  | int n => exact .int ⟨n.le_toInt, Int.lt_trans n.toInt_lt (by decide)⟩
  | str s => exact .text s
  | list items =>
      refine .list fun d hd => ?_
      obtain ⟨s, -, rfl⟩ := List.mem_map.mp hd
      exact .text s
  | count n =>
      refine .int ⟨?_, ?_⟩
      · omega
      · exact Int.ofNat_lt.mpr (Nat.lt_trans n.toNat_lt (by decide))

theorem ofContent?_integer (n : Int64) : ofContent? (.integer n.toInt) = some (.int n) := by
  have hlow : Int64.minValue.toInt ≤ n.toInt := n.le_toInt
  have hhigh : n.toInt ≤ Int64.maxValue.toInt := Int.le_of_lt_add_one n.toInt_lt
  rw [ofContent?, if_pos ⟨hlow, hhigh⟩, Int64.ofInt_toInt]

theorem contents_texts (items : List String) :
    Reading.contents (items.map fun s => (Document.text s).reading) = .ok (items.map .text) := by
  induction items with
  | nil => rfl
  | cons s items ih =>
      simp only [List.map_cons, Reading.contents, ih]
      rfl

theorem mapM_text? (items : List String) :
    (items.map Content.text).mapM Content.text? = some items := by
  induction items with
  | nil => rfl
  | cons s items ih =>
      rw [List.map_cons, List.mapM_cons, ih]
      rfl

/-- The form of a value leads back to it. -/
theorem value_reading (v : Value) : Source.value v.document.reading = .ok v.readBack := by
  have hread : ∀ {r : Reading} {c : Content} {w : Value}, r.content = .ok c →
      ofContent? c = some w → (Source.value r : Except Fault Value) = .ok w := by
    intro r c w hc hw
    change (r.content.bind fun c => _) = _
    rw [hc, Except.bind, hw]
    rfl
  cases v with
  | bool b => exact hread rfl rfl
  | int n => exact hread rfl (ofContent?_integer n)
  | str s => exact hread rfl rfl
  | list items =>
      refine hread (c := .list (items.map .text)) ?_ ?_
      · simp only [document, Document.reading, Document.readings_eq_map, List.map_map,
          Reading.content]
        change (Reading.contents (items.map fun s => (Document.text s).reading)).bind _ = _
        rw [contents_texts]
        rfl
      · rw [ofContent?, mapM_text?]
        rfl
  | count n =>
      have hn := ofContent?_integer (Int64.ofNat n.toNat)
      rw [toInt_ofNat_count] at hn
      exact hread rfl hn

theorem ofContent?_ne_count (c : Content) (n : UInt32) : ofContent? c ≠ some (.count n) := by
  unfold ofContent?
  split
  · simp
  · split_ifs <;> simp
  · simp
  · simp
  · simp

/-- No part of a text is read as a count. -/
theorem value_ne_count (r : Reading) (n : UInt32) :
    (Source.value r : Except Fault Value) ≠ .ok (.count n) := by
  intro h
  obtain ⟨c, -, hc⟩ := ok_of_bind h
  split at hc
  · rename_i v hv
    obtain rfl := Except.ok.inj hc
    exact ofContent?_ne_count c n hv
  · cases hc

theorem ne_count_of_optional {r : Reading} {v : Option Value}
    (h : (Source.optional Source.value r : Except Fault (Option Value)) = .ok v) (n : UInt32) :
    v ≠ some (.count n) := by
  rintro rfl
  exact value_ne_count r n (read_of_optional h)

end Value

end CommandSchema
