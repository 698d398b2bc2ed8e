import CommandSchema.Proofs.Parse.Split

/-!
# What a scan accepts

The scan of a list of tokens succeeds exactly if the tokens are those of a valid
line.  There is only one such line, and the scan leaves behind what the line says
about each field and its positional tokens.
-/

namespace CommandSchema

open Scan

/-! ## The terminator -/

theorem Supply.Fits.separate_of_mem_tail {supply : Supply} {type : ValueType}
    {lead mark v : String} (h : supply.Fits type) (hv : v ∈ (supply.tokens lead mark).tail) :
    isSeparateValue v = true := by
  cases supply with
  | attached value => simp [Supply.tokens] at hv
  | separate value =>
      obtain rfl : v = value := by simpa [Supply.tokens] using hv
      exact h.separate v rfl

/-- Only a separate value stands behind the first token of an item. -/
theorem Item.Valid.separate_of_mem_tail {s : Schema} {item : Item} {v : String}
    (h : item.Valid s) (hv : v ∈ item.tokens.tail) : isSeparateValue v = true := by
  cases h with
  | positional plain => simp [Item.tokens] at hv
  | longSwitch mem form kind => simp [Item.tokens] at hv
  | longValue mem form kind fits => exact fits.separate_of_mem_tail hv
  | cluster nonempty switches => simp [Item.tokens] at hv
  | clusterValue switches mem form kind fits nonempty => exact fits.separate_of_mem_tail hv

theorem Item.Valid.terminator_not_mem {s : Schema} {item : Item} (h : item.Valid s) :
    "--" ∉ item.tokens := by
  intro hmem
  obtain ⟨token, more, htokens, -⟩ := h.shape_head
  rw [htokens, List.mem_cons] at hmem
  rcases hmem with rfl | hmem
  · exact tailTokens_not_item (some more) item [] (by simp [Line.tailTokens, htokens]) h
  · have hseparate := h.separate_of_mem_tail (v := "--") (by simpa [htokens] using hmem)
    exact absurd hseparate (by decide)

/-- The first `--` of a valid line is its terminator. -/
theorem Line.Valid.terminator_not_mem {s : Schema} {line : Line} (h : line.Valid s) :
    "--" ∉ line.items.flatMap Item.tokens := by
  intro hmem
  obtain ⟨item, hitem, htoken⟩ := List.mem_flatMap.mp hmem
  exact (h item hitem).terminator_not_mem htoken

/-! ## Acceptance -/

/-- A scan that succeeds has read a valid line. -/
theorem exists_line_of_scan {s : Schema} {tokens : List String} {st : State}
    (h : scan s tokens = .ok st) :
    ∃ line : Line, line.Valid s ∧ line.tokens = tokens ∧ line.outcome s = st := by
  rcases line_or_stuck s tokens with
    ⟨line, hline, rfl⟩ | ⟨items, rest, e, hitems, rfl, hstuck⟩
  · rw [scan_line hline] at h
    exact ⟨line, hline, rfl, Except.ok.inj h⟩
  · rw [scan_stuck hitems hstuck] at h
    cases h

/-- A scan accepts exactly the tokens of valid lines, each of which has one reading
in which the first `--` is the terminator; and it leaves behind what that line
says: for each field the slot that the uses of its forms determine, and the
positional tokens in their order. -/
theorem scan_accepts_lines (s : Schema) (tokens : List String) :
    ((∃ st, scan s tokens = .ok st) ↔
        ∃! line : Line, line.Valid s ∧ line.tokens = tokens ∧
          "--" ∉ line.items.flatMap Item.tokens) ∧
      ∀ st, scan s tokens = .ok st ↔
        ∃ line : Line, line.Valid s ∧ line.tokens = tokens ∧ line.outcome s = st := by
  refine ⟨⟨?_, ?_⟩, fun st => ⟨exists_line_of_scan, ?_⟩⟩
  · rintro ⟨st, hscan⟩
    obtain ⟨line, hline, htokens, -⟩ := exists_line_of_scan hscan
    refine ⟨line, ⟨hline, htokens, hline.terminator_not_mem⟩, ?_⟩
    rintro other ⟨hother, htokens', -⟩
    exact line_unique hother hline (htokens'.trans htokens.symm)
  · rintro ⟨line, ⟨hline, rfl, -⟩, -⟩
    exact ⟨line.outcome s, scan_line hline⟩
  · rintro ⟨line, hline, rfl, rfl⟩
    exact scan_line hline

end CommandSchema
