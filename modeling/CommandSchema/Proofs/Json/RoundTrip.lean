import CommandSchema.Proofs.Json.Scalar
import Mathlib.Data.List.DropRight

/-!
# Documents are read as they are written

A text with space between its tokens, of which the compact and the indented form are two, is read
as the document that it was written from, whatever follows it.  The reader needs no more fuel than
twice the length of the text, so that each of its steps pays for the characters that it reads.
-/

namespace CommandSchema

namespace Document

mutual

/-- What is read of a document that was written. A single character is read as a text. -/
def reading : Document → Json.Reading
  | bool b => .bool b
  | int n => .number (.integer n)
  | text s => .text (some s)
  | letter c => .text (some (String.singleton c))
  | list items => .list (readings items) true
  | record members => .record (memberReadings members) true

/-- What is read of the items of a list. -/
def readings : List Document → List Json.Reading
  | [] => []
  | d :: ds => d.reading :: readings ds

/-- What is read of the members of a record. -/
def memberReadings : List (String × Document) → List (Option String × Json.Reading)
  | [] => []
  | (key, d) :: ms => (some key, d.reading) :: memberReadings ms

end

theorem readings_eq_map (ds : List Document) : readings ds = ds.map reading := by
  induction ds with
  | nil => rfl
  | cons d ds ih => rw [readings, ih, List.map_cons]

theorem memberReadings_eq_map (ms : List (String × Document)) :
    memberReadings ms = ms.map fun m => (some m.1, m.2.reading) := by
  induction ms with
  | nil => rfl
  | cons m ms ih => rw [memberReadings, ih, List.map_cons]

/-- A document whose integers have 64 bits and whose parts are nested `depth` levels deep at
most. -/
inductive Fits : ℕ → Document → Prop
  | bool {depth : ℕ} (b : Bool) : Fits depth (.bool b)
  | int {depth : ℕ} {n : ℤ} (h : Json.IsWord n) : Fits depth (.int n)
  | text {depth : ℕ} (s : String) : Fits depth (.text s)
  | letter {depth : ℕ} (c : Char) : Fits depth (.letter c)
  | list {depth : ℕ} {items : List Document} (h : ∀ d ∈ items, Fits depth d) :
      Fits (depth + 1) (.list items)
  | record {depth : ℕ} {members : List (String × Document)}
      (h : ∀ m ∈ members, Fits depth m.2) : Fits (depth + 1) (.record members)

end Document

namespace Json

/-! ## Space between tokens -/

/-- The space that a text has between its tokens. -/
structure Spacing where
  /-- Before a part at a depth. -/
  line : ℕ → List Char
  /-- After a colon. -/
  colon : List Char
  line_space : ∀ depth, ∀ c ∈ line depth, isSpace c = true
  colon_space : ∀ c ∈ colon, isSpace c = true

namespace Spacing

/-- No space at all. -/
def compact : Spacing where
  line _ := []
  colon := []
  line_space := by simp
  colon_space := by simp

/-- One part on each line. -/
def pretty : Spacing where
  line depth := (newLine depth).toList
  colon := [' ']
  line_space := by
    intro depth c hc
    simp [newLine] at hc
    rcases hc with rfl | ⟨-, rfl⟩ <;> rfl
  colon_space := by simp [isSpace]

end Spacing

mutual

/-- A document with space between its tokens. -/
def spaced (g : Spacing) (depth : ℕ) : Document → List Char
  | .bool b => if b then "true".toList else "false".toList
  | .int n => (Text.decimal n).toList
  | .text s => (string s).toList
  | .letter c => (string (String.singleton c)).toList
  | .list [] => ['[', ']']
  | .list (d :: ds) =>
    '[' :: (g.line (depth + 1) ++ (spaced g (depth + 1) d ++ spacedItems g depth ds))
  | .record [] => ['\x7b', '\x7d']
  | .record ((k, d) :: ms) =>
    '\x7b' :: (g.line (depth + 1) ++ ((string k).toList ++
      ':' :: (g.colon ++ (spaced g (depth + 1) d ++ spacedMembers g depth ms))))

/-- The items after the first, and the end of the list. -/
def spacedItems (g : Spacing) (depth : ℕ) : List Document → List Char
  | [] => g.line depth ++ [']']
  | d :: ds => ',' :: (g.line (depth + 1) ++ (spaced g (depth + 1) d ++ spacedItems g depth ds))

/-- The members after the first, and the end of the record. -/
def spacedMembers (g : Spacing) (depth : ℕ) : List (String × Document) → List Char
  | [] => g.line depth ++ ['\x7d']
  | (k, d) :: ms =>
    ',' :: (g.line (depth + 1) ++ ((string k).toList ++
      ':' :: (g.colon ++ (spaced g (depth + 1) d ++ spacedMembers g depth ms))))

end

mutual

theorem toList_compact (depth : ℕ) : ∀ d : Document,
    (compact d).toList = spaced .compact depth d
  | .bool b => by cases b <;> rfl
  | .int n | .text s | .letter c | .list [] | .record [] => rfl
  | .list (d :: ds) => by
      simp [compact, spaced, Spacing.compact, toList_compact (depth + 1) d,
        toList_compactItems depth ds]
  | .record ((k, d) :: ms) => by
      simp [compact, spaced, Spacing.compact, toList_compact (depth + 1) d,
        toList_compactMembers depth ms]

theorem toList_compactItems (depth : ℕ) : ∀ ds : List Document,
    (compactItems ds).toList = spacedItems .compact depth ds
  | [] => rfl
  | d :: ds => by
      simp [compactItems, spacedItems, Spacing.compact, toList_compact (depth + 1) d,
        toList_compactItems depth ds]

theorem toList_compactMembers (depth : ℕ) : ∀ ms : List (String × Document),
    (compactMembers ms).toList = spacedMembers .compact depth ms
  | [] => rfl
  | (k, d) :: ms => by
      simp [compactMembers, spacedMembers, Spacing.compact, toList_compact (depth + 1) d,
        toList_compactMembers depth ms]

end

mutual

theorem toList_prettyAt (depth : ℕ) : ∀ d : Document,
    (prettyAt depth d).toList = spaced .pretty depth d
  | .bool b => by cases b <;> rfl
  | .int n | .text s | .letter c => by simp [prettyAt, spaced]
  | .list [] | .record [] => by simp [prettyAt, spaced]
  | .list (d :: ds) => by
      simp [prettyAt, spaced, Spacing.pretty, toList_prettyAt (depth + 1) d,
        toList_prettyItems depth ds]
  | .record ((k, d) :: ms) => by
      simp [prettyAt, spaced, Spacing.pretty, toList_prettyAt (depth + 1) d,
        toList_prettyMembers depth ms]

theorem toList_prettyItems (depth : ℕ) : ∀ ds : List Document,
    (prettyItems depth ds).toList = spacedItems .pretty depth ds
  | [] => by simp [prettyItems, spacedItems, Spacing.pretty]
  | d :: ds => by
      simp [prettyItems, spacedItems, Spacing.pretty, toList_prettyAt (depth + 1) d,
        toList_prettyItems depth ds]

theorem toList_prettyMembers (depth : ℕ) : ∀ ms : List (String × Document),
    (prettyMembers depth ms).toList = spacedMembers .pretty depth ms
  | [] => by simp [prettyMembers, spacedMembers, Spacing.pretty]
  | (k, d) :: ms => by
      simp [prettyMembers, spacedMembers, Spacing.pretty, toList_prettyAt (depth + 1) d,
        toList_prettyMembers depth ms]

end

/-! ## One step of the reader -/

section Step

variable {gap cs cs' : List Char} {fuel depth : ℕ}

theorem skipSpace_append (hgap : ∀ c ∈ gap, isSpace c = true) :
    skipSpace (gap ++ cs) = skipSpace cs :=
  List.dropWhile_append_of_pos hgap

theorem skipSpace_cons {c : Char} (hc : isSpace c = false) : skipSpace (c :: cs) = c :: cs := by
  simp [skipSpace, hc]

theorem skipSpace_idem (cs : List Char) : skipSpace (skipSpace cs) = skipSpace cs :=
  List.dropWhile_idempotent isSpace cs

/-! The reader looks at no space in front of a part. -/

theorem value_congr (h : skipSpace cs = skipSpace cs') :
    value fuel depth cs = value fuel depth cs' := by
  cases fuel with
  | zero => rfl
  | succ fuel => rw [value, value, h]

theorem items_congr (h : skipSpace cs = skipSpace cs') :
    items fuel depth cs = items fuel depth cs' := by
  cases fuel with
  | zero => rfl
  | succ fuel => rw [items, items, value_congr h]

theorem members_congr (h : skipSpace cs = skipSpace cs') :
    members fuel depth cs = members fuel depth cs' := by
  cases fuel with
  | zero => rfl
  | succ fuel => rw [members, members, h]

variable {v : Reading} {rest rest' : List Char}

theorem toList_string (s : String) :
    (string s).toList = '"' :: (s.toList.flatMap escape ++ ['"']) :=
  String.toList_ofList

theorem toList_string_append (s : String) (rest : List Char) :
    (string s).toList ++ rest = '"' :: (s.toList.flatMap escape ++ '"' :: rest) := by
  simp [toList_string]

theorem value_string (s : String) :
    value (fuel + 1) depth ((string s).toList ++ rest) = (.text (some s), some rest) := by
  rw [toList_string_append, value, skipSpace_cons (by decide)]
  simp [string?_escapes]

theorem isSpace_eq_false_of_number {c : Char} (hc : c = '-' ∨ c.isDigit = true) :
    isSpace c = false := by
  simp only [isSpace, Bool.or_eq_false_iff, beq_eq_false_iff_ne]
  refine ⟨⟨⟨?_, ?_⟩, ?_⟩, ?_⟩ <;> rintro rfl <;> revert hc <;> decide

theorem value_number {c : Char} (hc : c = '-' ∨ c.isDigit = true) :
    value (fuel + 1) depth (c :: cs) = number (c :: cs) := by
  have hstart : c ≠ 'n' ∧ c ≠ 't' ∧ c ≠ 'f' ∧ c ≠ '"' ∧ c ≠ '[' ∧ c ≠ '\x7b' := by
    refine ⟨?_, ?_, ?_, ?_, ?_, ?_⟩ <;> rintro rfl <;> revert hc <;> decide
  rw [value, skipSpace_cons (isSpace_eq_false_of_number hc)]
  simp [hstart, hc]

theorem value_list {rs : List Reading} (hopen : ∀ cs', skipSpace cs ≠ ']' :: cs')
    (h : items fuel depth cs = (rs, some rest)) :
    value (fuel + 1) (depth + 1) ('[' :: cs) = (.list rs true, some rest) := by
  rw [← items_congr (skipSpace_idem cs)] at h
  rw [value, skipSpace_cons (by decide)]
  simp [h]

theorem value_record {ms : List (Option String × Reading)}
    (hopen : ∀ cs', skipSpace cs ≠ '\x7d' :: cs')
    (h : members fuel depth cs = (ms, some rest)) :
    value (fuel + 1) (depth + 1) ('\x7b' :: cs) = (.record ms true, some rest) := by
  rw [← members_congr (skipSpace_idem cs)] at h
  rw [value, skipSpace_cons (by decide)]
  simp [h]

theorem items_last (hv : value fuel depth cs = (v, some rest))
    (hrest : skipSpace rest = ']' :: rest') :
    items (fuel + 1) depth cs = ([v], some rest') := by
  simp [items, hv, hrest]

theorem items_cons {vs : List Reading} {end? : Option (List Char)}
    (hv : value fuel depth cs = (v, some rest)) (hrest : skipSpace rest = ',' :: rest')
    (h : items fuel depth rest' = (vs, end?)) :
    items (fuel + 1) depth cs = (v :: vs, end?) := by
  simp [items, hv, hrest, h]

theorem members_last (key : String) (hgap : ∀ c ∈ gap, isSpace c = true)
    (hv : value fuel depth cs = (v, some rest)) (hrest : skipSpace rest = '\x7d' :: rest') :
    members (fuel + 1) depth ((string key).toList ++ ':' :: (gap ++ cs)) =
      ([(some key, v)], some rest') := by
  rw [← value_congr (skipSpace_append hgap)] at hv
  rw [toList_string_append, members, skipSpace_cons (by decide)]
  simp [string?_escapes, skipSpace_cons (by decide : isSpace ':' = false), hv, hrest]

theorem members_cons (key : String) (hgap : ∀ c ∈ gap, isSpace c = true)
    {ms : List (Option String × Reading)} {end? : Option (List Char)}
    (hv : value fuel depth cs = (v, some rest)) (hrest : skipSpace rest = ',' :: rest')
    (h : members fuel depth rest' = (ms, end?)) :
    members (fuel + 1) depth ((string key).toList ++ ':' :: (gap ++ cs)) =
      ((some key, v) :: ms, end?) := by
  rw [← value_congr (skipSpace_append hgap)] at hv
  rw [toList_string_append, members, skipSpace_cons (by decide)]
  simp [string?_escapes, skipSpace_cons (by decide : isSpace ':' = false), hv, hrest, h]

end Step

/-! ## Reading what was written -/

/-- Whether the reader gets a document back from its text, whatever follows. -/
def IsReadAt (g : Spacing) (depth : ℕ) (d : Document) : Prop :=
  ∀ (level fuel : ℕ) (rest : List Char), 2 * (spaced g level d).length ≤ fuel →
    EndsNumber rest → value fuel depth (spaced g level d ++ rest) = (d.reading, some rest)

variable {g : Spacing} {fuel depth level : ℕ}

theorem endsNumber_of_mark {gap : List Char} (hgap : ∀ c ∈ gap, isSpace c = true) {c : Char}
    (hc : c ∈ [',', ']', '\x7d']) (rest : List Char) : EndsNumber (gap ++ c :: rest) := by
  intro e he
  cases gap with
  | nil =>
      obtain rfl : c = e := by simpa using he
      simp at hc
      rcases hc with rfl | rfl | rfl <;> decide
  | cons b gap =>
      obtain rfl : b = e := by simpa using he
      have hspace := hgap b List.mem_cons_self
      simp [isSpace] at hspace
      rcases hspace with ((rfl | rfl) | rfl) | rfl <;> decide

theorem endsNumber_comma (cs : List Char) : EndsNumber (',' :: cs) :=
  @endsNumber_of_mark [] (by simp) ',' (by simp) cs

/-- A document starts with a character that is neither space nor the end of a list. -/
theorem spaced_head (g : Spacing) (level : ℕ) (d : Document) :
    ∃ c cs, spaced g level d = c :: cs ∧ isSpace c = false ∧ c ≠ ']' := by
  cases d with
  | bool b => cases b <;> exact ⟨_, _, rfl, by decide, by decide⟩
  | int n =>
      obtain ⟨c, cs, hcs, hc⟩ := decimal_head n
      refine ⟨c, cs, hcs, isSpace_eq_false_of_number hc, ?_⟩
      rintro rfl
      exact absurd hc (by decide)
  | text s => exact ⟨_, _, toList_string s, by decide, by decide⟩
  | letter c => exact ⟨_, _, toList_string _, by decide, by decide⟩
  | list items => cases items <;> exact ⟨_, _, rfl, by decide, by decide⟩
  | record members => cases members <;> exact ⟨_, _, rfl, by decide, by decide⟩

theorem items_spaced {d : Document} {ds : List Document}
    (h : ∀ e ∈ d :: ds, IsReadAt g depth e) (rest : List Char)
    (hfuel : 2 * (spaced g (level + 1) d ++ spacedItems g level ds).length ≤ fuel) :
    items fuel depth (spaced g (level + 1) d ++ (spacedItems g level ds ++ rest)) =
      ((d :: ds).map Document.reading, some rest) := by
  induction ds generalizing d fuel with
  | nil =>
      simp only [spacedItems, List.length_append, List.length_singleton] at hfuel
      obtain ⟨fuel, rfl⟩ : ∃ n, fuel = n + 1 := ⟨fuel - 1, by omega⟩
      have hmark := endsNumber_of_mark (g.line_space level) (c := ']') (by simp) rest
      have hvalue := h d List.mem_cons_self (level + 1) fuel _ (by omega) hmark
      rw [spacedItems, List.append_assoc, List.singleton_append]
      refine items_last hvalue ?_
      rw [skipSpace_append (g.line_space level), skipSpace_cons (by decide)]
  | cons e ds ih =>
      simp only [spacedItems, List.length_append, List.length_cons] at hfuel
      obtain ⟨fuel, rfl⟩ : ∃ n, fuel = n + 1 := ⟨fuel - 1, by omega⟩
      have hrest : 2 * (spaced g (level + 1) e ++ spacedItems g level ds).length ≤ fuel := by
        rw [List.length_append]
        omega
      have hmore := ih (fun e he => h e (List.mem_cons_of_mem d he)) hrest
      rw [← items_congr (skipSpace_append (g.line_space (level + 1)))] at hmore
      rw [spacedItems, List.cons_append, List.append_assoc, List.append_assoc]
      refine items_cons ?_ (skipSpace_cons (by decide)) hmore
      exact h d List.mem_cons_self (level + 1) fuel _ (by omega) (endsNumber_comma _)

theorem members_spaced {key : String} {d : Document} {ms : List (String × Document)}
    (h : ∀ m ∈ (key, d) :: ms, IsReadAt g depth m.2) (rest : List Char)
    (hfuel : 2 * ((string key).toList ++
      ':' :: (g.colon ++ (spaced g (level + 1) d ++ spacedMembers g level ms))).length ≤ fuel) :
    members fuel depth ((string key).toList ++
        ':' :: (g.colon ++ (spaced g (level + 1) d ++ (spacedMembers g level ms ++ rest)))) =
      (((key, d) :: ms).map fun m => (some m.1, m.2.reading), some rest) := by
  induction ms generalizing key d fuel with
  | nil =>
      have hd : IsReadAt g depth d := h (key, d) List.mem_cons_self
      simp only [spacedMembers, List.length_append, List.length_cons] at hfuel
      obtain ⟨fuel, rfl⟩ : ∃ n, fuel = n + 1 := ⟨fuel - 1, by omega⟩
      have hmark := endsNumber_of_mark (g.line_space level) (c := '\x7d') (by simp) rest
      have hvalue := hd (level + 1) fuel _ (by omega) hmark
      rw [spacedMembers, List.append_assoc, List.singleton_append]
      refine members_last key g.colon_space hvalue ?_
      rw [skipSpace_append (g.line_space level), skipSpace_cons (by decide)]
  | cons m ms ih =>
      obtain ⟨key', e⟩ := m
      have hd : IsReadAt g depth d := h (key, d) List.mem_cons_self
      simp only [spacedMembers, List.length_append, List.length_cons] at hfuel
      obtain ⟨fuel, rfl⟩ : ∃ n, fuel = n + 1 := ⟨fuel - 1, by omega⟩
      have hrest : 2 * ((string key').toList ++
          ':' :: (g.colon ++ (spaced g (level + 1) e ++ spacedMembers g level ms))).length ≤
            fuel := by
        simp only [List.length_append, List.length_cons]
        omega
      have hmore := ih (fun m hm => h m (List.mem_cons_of_mem _ hm)) hrest
      rw [← members_congr (skipSpace_append (g.line_space (level + 1)))] at hmore
      simp only [spacedMembers, List.cons_append, List.append_assoc]
      refine members_cons key g.colon_space ?_ (skipSpace_cons (by decide)) hmore
      exact hd (level + 1) fuel _ (by omega) (endsNumber_comma _)

/-- A document has some text, so the reader has not run out of fuel before it. -/
theorem IsReadAt.of_succ {d : Document}
    (h : ∀ (level fuel : ℕ) (rest : List Char), 2 * (spaced g level d).length ≤ fuel + 1 →
      EndsNumber rest →
        value (fuel + 1) depth (spaced g level d ++ rest) = (d.reading, some rest)) :
    IsReadAt g depth d := by
  intro level fuel rest hfuel hrest
  obtain ⟨c, cs, hcs, -⟩ := spaced_head g level d
  have hlength : (spaced g level d).length = cs.length + 1 := by rw [hcs, List.length_cons]
  obtain ⟨fuel, rfl⟩ : ∃ n, fuel = n + 1 := ⟨fuel - 1, by omega⟩
  exact h level fuel rest hfuel hrest

theorem isReadAt_list {ds : List Document} (h : ∀ d ∈ ds, IsReadAt g depth d) :
    IsReadAt g (depth + 1) (.list ds) := by
  refine .of_succ fun level fuel rest hfuel _ => ?_
  cases ds with
  | nil => simp [spaced, value, skipSpace, isSpace, Document.reading, Document.readings]
  | cons d ds =>
      simp only [spaced, List.length_cons, List.length_append] at hfuel
      have hpart : 2 * (spaced g (level + 1) d ++ spacedItems g level ds).length ≤ fuel := by
        rw [List.length_append]
        omega
      have hitems := items_spaced h rest hpart
      rw [← items_congr (skipSpace_append (g.line_space (level + 1)))] at hitems
      simp only [spaced, List.cons_append, List.append_assoc, Document.reading,
        Document.readings_eq_map]
      refine value_list ?_ hitems
      obtain ⟨c, cs, hcs, hspace, hc⟩ := spaced_head g (level + 1) d
      intro cs' hclose
      rw [skipSpace_append (g.line_space (level + 1)), hcs, List.cons_append,
        skipSpace_cons hspace] at hclose
      exact hc (List.cons.inj hclose).1

theorem isReadAt_record {ms : List (String × Document)}
    (h : ∀ m ∈ ms, IsReadAt g depth m.2) : IsReadAt g (depth + 1) (.record ms) := by
  refine .of_succ fun level fuel rest hfuel _ => ?_
  cases ms with
  | nil => simp [spaced, value, skipSpace, isSpace, Document.reading, Document.memberReadings]
  | cons m ms =>
      obtain ⟨key, d⟩ := m
      simp only [spaced, List.length_cons, List.length_append] at hfuel
      have hpart : 2 * ((string key).toList ++
          ':' :: (g.colon ++ (spaced g (level + 1) d ++ spacedMembers g level ms))).length ≤
            fuel := by
        simp only [List.length_append, List.length_cons]
        omega
      have hmembers := members_spaced h rest hpart
      rw [← members_congr (skipSpace_append (g.line_space (level + 1)))] at hmembers
      simp only [spaced, List.cons_append, List.append_assoc, Document.reading,
        Document.memberReadings_eq_map]
      refine value_record ?_ hmembers
      intro cs' hclose
      rw [skipSpace_append (g.line_space (level + 1)), toList_string_append,
        skipSpace_cons (by decide)] at hclose
      exact absurd (List.cons.inj hclose).1 (by decide)

/-- Every document that fits is read back from its text. -/
theorem isReadAt_of_fits {d : Document} (h : d.Fits depth) : IsReadAt g depth d := by
  induction h with
  | bool b =>
      refine .of_succ fun level fuel rest _ _ => ?_
      cases b <;> simp [spaced, value, skipSpace, isSpace, Document.reading]
  | @int _ n hn =>
      refine .of_succ fun level fuel rest _ hrest => ?_
      have hnumber := number_decimal hn hrest
      obtain ⟨c, cs, hcs, hc⟩ := decimal_head n
      rw [spaced, Document.reading, ← hnumber, hcs, List.cons_append, value_number hc]
  | text s => exact .of_succ fun _ _ _ _ _ => value_string s
  | letter c => exact .of_succ fun _ _ _ _ _ => value_string _
  | list _ ih => exact isReadAt_list ih
  | record _ ih => exact isReadAt_record ih

theorem read_of_toList {d : Document} (h : d.Fits maxDepth) {text : String}
    (htext : text.toList = spaced g level d) : read text = (d.reading, true) := by
  have hvalue := isReadAt_of_fits (g := g) h level (2 * text.toList.length + 2) []
    (by rw [htext]; omega) (by simp [EndsNumber])
  rw [List.append_nil, ← htext] at hvalue
  rw [read, hvalue]
  rfl

/-- Both forms of a document are read as this document, and nothing follows it. -/
theorem read_compact {d : Document} (h : d.Fits maxDepth) : read (compact d) = (d.reading, true) :=
  read_of_toList h (toList_compact 0 d)

theorem read_pretty {d : Document} (h : d.Fits maxDepth) : read (pretty d) = (d.reading, true) :=
  read_of_toList h (toList_prettyAt 0 d)

end Json

end CommandSchema
