import CommandSchema.Proofs.Generated.Member
import CommandSchema.Proofs.Text.Blank
import CommandSchema.Proofs.Text.Quoted

/-!
# Fresh modules

A generated module carries the fingerprint of what it was generated from in its opening
comment, behind a line with the name of the schema.  The name is written there as it is:
a name of several lines becomes several lines of the module, and the first of them that is
not a plain comment line decides what is read back.
-/

namespace CommandSchema

/-! ## Digests -/

namespace Sha256

theorem mem_hexDigest {c : Char} {message : List UInt8} (h : c ∈ (hexDigest message).toList) :
    ∃ d < 16, c = d.digitChar := by
  rw [hexDigest, String.toList_ofList, List.mem_flatMap] at h
  obtain ⟨w, -, hw⟩ := h
  rw [hexWord, List.leftpad, List.mem_append] at hw
  rcases hw with hw | hw
  · exact ⟨0, by decide, List.eq_of_mem_replicate hw⟩
  · exact Text.mem_hex hw

end Sha256

namespace Fingerprint

/-- A fingerprint has no blank in it, and no period. -/
theorem not_blank_of_mem {c : Char} {s : Schema} {structName : String}
    (h : c ∈ (of s structName).toList) : Text.isBlank c = false ∧ c ≠ '.' := by
  have hdigits : ∀ d < 16, Text.isBlank d.digitChar = false ∧ d.digitChar ≠ '.' := by decide
  obtain ⟨d, hd, rfl⟩ := Sha256.mem_hexDigest h
  exact hdigits d hd

/-! ## Lines of the opening comment -/

/-- A line of a comment that carries no fingerprint. -/
def IsRemark (line : List Char) : Prop :=
  "//".toList <+: line ∧ ¬marker.toList <+: line

instance (line : List Char) : Decidable (IsRemark line) :=
  inferInstanceAs (Decidable (_ ∧ _))

theorem line_cases (line : List Char) :
    IsRemark line ∨ ¬"//".toList <+: line ∨ ∃ print, line = marker.toList ++ print := by
  by_cases hcomment : "//".toList <+: line
  · by_cases hmarker : marker.toList <+: line
    · obtain ⟨print, rfl⟩ := hmarker
      exact Or.inr (Or.inr ⟨print, rfl⟩)
    · exact Or.inl ⟨hcomment, hmarker⟩
  · exact Or.inr (Or.inl hcomment)

theorem comment_prefix_marker : "//".toList <+: marker.toList := by
  decide

section Embedded

variable {line : List Char} (h : '\n' ∉ line) (rest : List Char)

include h

theorem embedded_remark (hline : IsRemark line) :
    embedded (String.ofList (line ++ '\n' :: rest)) = embedded (String.ofList rest) := by
  have hcomment : "//".toList.isPrefixOf (Text.dropReturn line) = true := by
    rw [List.isPrefixOf_iff_prefix, Text.prefix_dropReturn_iff line (by decide)]
    exact hline.1
  have hmarker : marker.toList.isPrefixOf? (Text.dropReturn line) = none := by
    rw [Option.eq_none_iff_forall_ne_some]
    intro print hprint
    rw [List.isPrefixOf?_eq_some_iff_append_eq] at hprint
    exact hline.2 ((Text.prefix_dropReturn_iff line (by decide)).mp ⟨print, hprint⟩)
  simp only [embedded, String.toList_ofList, Text.lines_append_newline h,
    List.takeWhile_cons_of_pos hcomment, List.findSome?_cons, hmarker]

theorem embedded_code (hline : ¬"//".toList <+: line) :
    embedded (String.ofList (line ++ '\n' :: rest)) = none := by
  have hcode : ¬"//".toList.isPrefixOf (Text.dropReturn line) = true := by
    rw [List.isPrefixOf_iff_prefix, Text.prefix_dropReturn_iff line (by decide)]
    exact hline
  simp only [embedded, String.toList_ofList, Text.lines_append_newline h,
    List.takeWhile_cons_of_neg hcode, List.findSome?_nil, Option.map_none]

theorem embedded_print :
    embedded (String.ofList (marker.toList ++ line ++ '\n' :: rest)) =
      some (String.ofList (Text.trim line)) := by
  have hbreak : '\n' ∉ marker.toList ++ line := by
    rw [List.mem_append, not_or]
    exact ⟨by decide, h⟩
  have hdrop : Text.dropReturn (marker.toList ++ line) = marker.toList ++ Text.dropReturn line :=
    Text.dropReturn_append line (by decide)
  have hcomment : "//".toList.isPrefixOf (marker.toList ++ Text.dropReturn line) = true := by
    rw [List.isPrefixOf_iff_prefix]
    exact comment_prefix_marker.trans (List.prefix_append _ _)
  have hmarker : marker.toList.isPrefixOf? (marker.toList ++ Text.dropReturn line) =
      some (Text.dropReturn line) :=
    List.isPrefixOf?_eq_some_iff_append_eq.mpr rfl
  simp only [embedded, String.toList_ofList, Text.lines_append_newline hbreak, hdrop,
    List.takeWhile_cons_of_pos hcomment, List.findSome?_cons, hmarker, Option.map_some,
    Text.trim_dropReturn]

end Embedded

theorem embedded_own_print (s : Schema) (structName : String) (rest : List Char) :
    embedded (String.ofList (marker.toList ++ (of s structName).toList ++ '\n' :: rest)) =
      some (of s structName) := by
  have hbreak : '\n' ∉ (of s structName).toList := by
    intro h
    have hblank := (not_blank_of_mem h).1
    cases hblank
  rw [embedded_print hbreak, Text.trim_of_not_blank fun c hc => (not_blank_of_mem hc).1,
    String.ofList_toList]

/-! ## Names of several lines -/

/-- Later lines of a name behind which a fingerprint is still read back: all of them are
remarks, or the first that is none carries the same fingerprint and another line follows. -/
def KeepsPrint (print : List Char) (later : List (List Char)) : Prop :=
  (∀ line ∈ later, IsRemark line) ∨
    ∃ remarks text others, later = remarks ++ (marker.toList ++ text) :: others ∧
      (∀ line ∈ remarks, IsRemark line) ∧ others ≠ [] ∧ Text.trim text = print

theorem not_isRemark_marker (text : List Char) : ¬IsRemark (marker.toList ++ text) :=
  fun h => h.2 (List.prefix_append _ _)

section KeepsPrint

variable {print line : List Char} {later : List (List Char)}

theorem keepsPrint_cons_remark (h : IsRemark line) :
    KeepsPrint print (line :: later) ↔ KeepsPrint print later := by
  unfold KeepsPrint
  constructor
  · rintro (hall | ⟨remarks, text, others, hlater, hremarks, hothers, htext⟩)
    · exact Or.inl (List.forall_mem_cons.mp hall).2
    · cases remarks with
      | nil =>
          obtain ⟨rfl, -⟩ := List.cons.inj hlater
          exact absurd h (not_isRemark_marker text)
      | cons first remarks =>
          obtain ⟨-, rfl⟩ := List.cons.inj hlater
          exact Or.inr ⟨remarks, text, others, rfl, (List.forall_mem_cons.mp hremarks).2,
            hothers, htext⟩
  · rintro (hall | ⟨remarks, text, others, rfl, hremarks, hothers, htext⟩)
    · exact Or.inl (List.forall_mem_cons.mpr ⟨h, hall⟩)
    · exact Or.inr ⟨line :: remarks, text, others, rfl, List.forall_mem_cons.mpr ⟨h, hremarks⟩,
        hothers, htext⟩

theorem keepsPrint_cons_of_not_remark (h : ¬IsRemark line) :
    KeepsPrint print (line :: later) ↔
      ∃ text, line = marker.toList ++ text ∧ later ≠ [] ∧ Text.trim text = print := by
  unfold KeepsPrint
  constructor
  · rintro (hall | ⟨remarks, text, others, hlater, hremarks, hothers, htext⟩)
    · exact absurd (hall line List.mem_cons_self) h
    · cases remarks with
      | nil =>
          obtain ⟨rfl, rfl⟩ := List.cons.inj hlater
          exact ⟨text, rfl, hothers, htext⟩
      | cons first remarks =>
          obtain ⟨rfl, -⟩ := List.cons.inj hlater
          exact absurd (hremarks line List.mem_cons_self) h
  · rintro ⟨text, rfl, hothers, htext⟩
    exact Or.inr ⟨[], text, later, rfl, by simp, hothers, htext⟩

end KeepsPrint

/-- The words that end the first line of the comment. -/
def closing : String :=
  "`. Do not edit by hand."

/-- The comment from a line of the name on; the closing words stand behind the last one. -/
def commentFrom (pieces : List (List Char)) (rest : List Char) : List Char :=
  ['\n'].intercalate pieces ++ closing.toList ++ '\n' :: rest

theorem commentFrom_singleton (line rest : List Char) :
    commentFrom [line] rest = (line ++ closing.toList) ++ '\n' :: rest := by
  rw [commentFrom, List.intercalate_singleton]

theorem commentFrom_cons_cons (line next : List Char) (later : List (List Char))
    (rest : List Char) :
    commentFrom (line :: next :: later) rest = line ++ '\n' :: commentFrom (next :: later) rest := by
  simp only [commentFrom, List.intercalate_cons_cons, List.append_assoc,
    List.cons_append, List.nil_append]

theorem newline_not_mem_append_closing {line : List Char} (h : '\n' ∉ line) :
    '\n' ∉ line ++ closing.toList := by
  rw [List.mem_append, not_or]
  exact ⟨h, by decide⟩

theorem prefix_append_closing_iff {front : List Char} (line : List Char) (h : '`' ∉ front) :
    front <+: line ++ closing.toList ↔ front <+: line := by
  have hclosing : closing.toList = '`' :: closing.toList.tail := by decide
  rw [hclosing, Text.prefix_append_iff h]

theorem isRemark_append_closing {line : List Char} (h : IsRemark line) :
    IsRemark (line ++ closing.toList) := by
  rw [IsRemark, prefix_append_closing_iff line (by decide),
    prefix_append_closing_iff line (by decide)]
  exact h

section Comment

variable {print : String} {rest : List Char}
  (hprint : ∀ c ∈ print.toList, Text.isBlank c = false ∧ c ≠ '.')

include hprint

/-- Behind the last line of the name no fingerprint can be read: the closing words end in a
period. -/
theorem trim_append_closing_ne (text : List Char) :
    Text.trim (text ++ closing.toList) ≠ print.toList := by
  intro htrim
  have hperiod : '.' ∈ Text.trim (text ++ closing.toList) :=
    Text.mem_trim (by decide) (List.mem_append_right _ (by decide))
  rw [htrim] at hperiod
  exact (hprint '.' hperiod).2 rfl

/-- A line of the name that is no remark decides what is read back. -/
theorem embedded_commentFrom_of_not_remark {line : List Char} (hbreak : '\n' ∉ line)
    (hline : ¬IsRemark line) (later : List (List Char)) (rest : List Char) :
    embedded (String.ofList (commentFrom (line :: later) rest)) = some print ↔
      ∃ text, line = marker.toList ++ text ∧ later ≠ [] ∧ Text.trim text = print.toList := by
  cases later with
  | nil =>
      have hended := newline_not_mem_append_closing hbreak
      rw [commentFrom_singleton]
      refine iff_of_false ?_ fun ⟨_, _, hnil, _⟩ => hnil rfl
      rcases line_cases line with hremark | hcode | ⟨text, rfl⟩
      · exact absurd hremark hline
      · rw [← prefix_append_closing_iff line (by decide)] at hcode
        rw [embedded_code hended _ hcode]
        exact (Option.some_ne_none print).symm
      · rw [List.append_assoc] at hended
        have htext : '\n' ∉ text ++ closing.toList := fun h => hended (List.mem_append_right _ h)
        rw [List.append_assoc marker.toList, embedded_print htext, Option.some.injEq,
          ← String.toList_inj, String.toList_ofList]
        exact trim_append_closing_ne hprint text
  | cons next later =>
      rw [commentFrom_cons_cons]
      rcases line_cases line with hremark | hcode | ⟨text, rfl⟩
      · exact absurd hremark hline
      · rw [embedded_code hbreak _ hcode]
        refine iff_of_false (Option.some_ne_none print).symm ?_
        rintro ⟨text, rfl, -⟩
        exact hcode (comment_prefix_marker.trans (List.prefix_append _ _))
      · have htext : '\n' ∉ text := fun h => hbreak (List.mem_append_right _ h)
        rw [embedded_print htext, Option.some.injEq, ← String.toList_inj, String.toList_ofList]
        constructor
        · intro htrim
          exact ⟨text, rfl, List.cons_ne_nil _ _, htrim⟩
        · rintro ⟨text', hsame, -, htrim⟩
          rwa [List.append_cancel_left hsame]

/-- What is read back from a comment whose first line is a remark, before a line with a
fingerprint. -/
theorem embedded_commentFrom_iff (hrest : embedded (String.ofList rest) = some print)
    {line : List Char} {later : List (List Char)} (hbreak : ∀ piece ∈ line :: later, '\n' ∉ piece)
    (hline : IsRemark line) :
    embedded (String.ofList (commentFrom (line :: later) rest)) = some print ↔
      KeepsPrint print.toList later := by
  -- The lines of the name are read one by one until one is no remark.
  induction later generalizing line with
  | nil =>
      have hended := newline_not_mem_append_closing (hbreak line List.mem_cons_self)
      have hnil : KeepsPrint print.toList [] := Or.inl (by simp)
      rw [commentFrom_singleton, embedded_remark hended _ (isRemark_append_closing hline), hrest]
      exact iff_of_true rfl hnil
  | cons next later ih =>
      obtain ⟨hfirst, hothers⟩ := List.forall_mem_cons.mp hbreak
      rw [commentFrom_cons_cons, embedded_remark hfirst _ hline]
      by_cases hnext : IsRemark next
      · rw [keepsPrint_cons_remark hnext]
        exact ih hothers hnext
      · rw [keepsPrint_cons_of_not_remark hnext]
        exact embedded_commentFrom_of_not_remark hprint (hothers next List.mem_cons_self) hnext
          later rest

end Comment

theorem isStale_eq_false_iff (source : String) (s : Schema) (structName : String) :
    isStale source s structName = false ↔ embedded source = some (of s structName) := by
  rw [isStale, bne_eq_false_iff_eq]

end Fingerprint

namespace Generated

open Fingerprint Rust

/-- The words that start the first line of the comment. -/
def opening : String :=
  "// @generated by argbind from schema `"

theorem isRemark_opening (first : List Char) : IsRemark (opening.toList ++ first) := by
  have hcomment : "//".toList <+: opening.toList := by decide
  refine ⟨hcomment.trans (List.prefix_append _ _), fun hmarker => ?_⟩
  rcases List.prefix_or_prefix_of_prefix hmarker (List.prefix_append _ first) with h | h
  · exact absurd h (by decide)
  · exact absurd h (by decide)

/-- A module starts with its comment: the lines of the schema's name, and a line with the
fingerprint. -/
theorem exists_source_eq (m : Module) {first : List Char} {later : List (List Char)}
    (h : m.schema.name.toList.splitOn '\n' = first :: later) :
    ∃ rest, m.source.toList = commentFrom ((opening.toList ++ first) :: later)
      (marker.toList ++ (of m.schema m.structName).toList ++ '\n' :: rest) := by
  have hlines : unlines m.headerLines ++ unlines m.schemaLines ++ unlines m.itemLines =
      unlines ((opening ++ m.schema.name ++ closing) ::
        (marker ++ of m.schema m.structName) ::
          (m.headerLines.drop 2 ++ m.schemaLines ++ m.itemLines)) := by
    rw [← unlines_append, ← unlines_append]
    rfl
  have hname : ['\n'].intercalate (first :: later) = m.schema.name.toList := by
    rw [← h]
    exact List.intercalate_splitOn '\n'
  have hopening : ['\n'].intercalate ((opening.toList ++ first) :: later) =
      opening.toList ++ m.schema.name.toList := by
    rw [← hname]
    cases later <;> simp [List.intercalate_cons_cons]
  refine ⟨(unlines (m.headerLines.drop 2 ++ m.schemaLines ++ m.itemLines)).toList, ?_⟩
  rw [m.source_eq, hlines, toList_unlines_cons, toList_unlines_cons, commentFrom, hopening]
  simp only [String.toList_append, List.append_assoc, List.singleton_append]

/-- The fingerprint of a module is read back exactly if the name of the schema leaves it its
place in the comment. -/
theorem embedded_source_iff (m : Module) :
    embedded m.source = some (of m.schema m.structName) ↔
      KeepsPrint (of m.schema m.structName).toList (m.schema.name.toList.splitOn '\n').tail := by
  obtain ⟨first, later, hpieces⟩ :=
    List.exists_cons_of_ne_nil (List.splitOn_ne_nil '\n' m.schema.name.toList)
  obtain ⟨rest, hsource⟩ := exists_source_eq m hpieces
  have hname : ∀ piece ∈ first :: later, '\n' ∉ piece := by
    rw [← hpieces]
    exact fun piece hpiece => (Text.of_mem_splitOn hpiece).1
  have hbreaks : ∀ piece ∈ (opening.toList ++ first) :: later, '\n' ∉ piece := by
    rw [List.forall_mem_cons] at hname ⊢
    rw [List.mem_append, not_or]
    exact ⟨⟨by decide, hname.1⟩, hname.2⟩
  rw [← String.ofList_toList (s := m.source), hsource, hpieces, List.tail_cons]
  exact embedded_commentFrom_iff (fun c hc => not_blank_of_mem hc)
    (embedded_own_print _ _ rest) hbreaks (isRemark_opening first)

variable {s : Schema} {structName source : String}

theorem embedded_emitAs_iff (h : emitAs s structName = .ok source) :
    embedded source = some (of s structName) ↔
      KeepsPrint (of s structName).toList (s.name.toList.splitOn '\n').tail := by
  obtain ⟨m, hm, rfl⟩ := exists_module_of_emitAs h
  obtain ⟨rfl, -⟩ := Module.of_eq_ok hm
  obtain ⟨rfl, -⟩ := Module.covers_of_eq_ok hm
  exact embedded_source_iff m

/-- A generated module is fresh, and gives back the fingerprint of what it was generated
from, exactly if the later lines of the schema's name keep it. -/
theorem emitAs_fresh_iff (h : emitAs s structName = .ok source) :
    (embedded source = some (of s structName) ∧ isStale source s structName = false) ↔
      KeepsPrint (of s structName).toList (s.name.toList.splitOn '\n').tail := by
  rw [isStale_eq_false_iff, and_self, embedded_emitAs_iff h]

/-- A schema whose name goes on in a second line of the comment. -/
def remarkedCommand : Schema :=
  { greetCommand with
    name := "greet\n// politely"
    name_not_blank := by decide }

theorem emitAs_fresh_remarked : ∃ source, emitAs remarkedCommand "Greet" = .ok source ∧
    embedded source = some (of remarkedCommand "Greet") ∧
    isStale source remarkedCommand "Greet" = false := by
  have hemit : ∃ source, emitAs remarkedCommand "Greet" = .ok source := ⟨_, rfl⟩
  obtain ⟨source, hsource⟩ := hemit
  have hlater : (remarkedCommand.name.toList.splitOn '\n').tail = ["// politely".toList] := by
    decide
  have hkeeps : KeepsPrint (of remarkedCommand "Greet").toList
      (remarkedCommand.name.toList.splitOn '\n').tail := by
    rw [hlater]
    exact Or.inl (by decide)
  exact ⟨source, hsource, (emitAs_fresh_iff hsource).mpr hkeeps⟩

/-- A schema whose name breaks off the comment. -/
def brokenCommand : Schema where
  name := "a\nb"
  description := none
  fields := []
  name_not_blank := by decide
  consistent := by decide

theorem emitAs_stale_broken : ∃ source, emitAs brokenCommand "T" = .ok source ∧
    embedded source = none ∧ isStale source brokenCommand "T" = true := by
  let m : Module := ⟨brokenCommand, "T", []⟩
  have hpieces : m.schema.name.toList.splitOn '\n' = [['a'], ['b']] := by decide
  obtain ⟨rest, hsource⟩ := exists_source_eq m hpieces
  have hcode : ¬"//".toList <+: ['b'] ++ closing.toList := by decide
  have hembedded : embedded m.source = none := by
    rw [← String.ofList_toList (s := m.source), hsource, commentFrom_cons_cons,
      embedded_remark (by decide) _ (isRemark_opening ['a']), commentFrom_singleton,
      embedded_code (by decide) _ hcode]
  refine ⟨m.source, rfl, hembedded, ?_⟩
  rw [isStale, hembedded]
  rfl

end Generated

end CommandSchema
