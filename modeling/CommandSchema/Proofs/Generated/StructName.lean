import CommandSchema.Proofs.Generated.Imports
import CommandSchema.Proofs.Schema.Name
import Mathlib.Data.List.DropRight

/-!
# Names of structs

A struct is called by the letters and digits in the name of its schema, with the first of each run
in upper case.  What stands between the runs is dropped.  Such a name is a normal form: the name
that is derived from it is the name itself.
-/

namespace CommandSchema.Generated

/-! ## Runs of letters and digits -/

/-- A run of letters and digits with neither right before it nor right behind it. -/
structure IsRun (before run behind : List Char) : Prop where
  inside : ∀ c ∈ run, c.isAlphanum = true
  before : ∀ c ∈ before.getLast?, c.isAlphanum = false
  behind : ∀ c ∈ behind.head?, c.isAlphanum = false

/-- Every letter or digit is in a run. -/
theorem exists_isRun (front back : List Char) {c : Char} (hc : c.isAlphanum = true) :
    ∃ before start rest behind, front = before ++ start ∧ back = rest ++ behind ∧
      IsRun before (start ++ c :: rest) behind := by
  refine ⟨front.rdropWhile Char.isAlphanum, front.rtakeWhile Char.isAlphanum,
    back.takeWhile Char.isAlphanum, back.dropWhile Char.isAlphanum,
    List.rdropWhile_append_rtakeWhile.symm, List.takeWhile_append_dropWhile.symm, ?_, ?_, ?_⟩
  · intro d hd
    rcases List.mem_append.mp hd with hstart | hrest
    · exact List.mem_rtakeWhile_imp hstart
    · rcases List.mem_cons.mp hrest with rfl | hrest
      · exact hc
      · exact List.mem_takeWhile_imp hrest
  · intro d hd
    obtain ⟨hne, rfl⟩ := List.mem_getLast?_eq_getLast hd
    exact Bool.not_eq_true _ ▸ List.rdropWhile_last_not _ _ hne
  · intro d hd
    have hnot := List.head?_dropWhile_not Char.isAlphanum back
    rw [Option.mem_def.mp hd] at hnot
    exact hnot

/-- The letters and digits of a text are numbered from its start on. -/
theorem exists_eq_append_of_lt_countP {text : List Char} {k : ℕ}
    (hk : k < text.countP Char.isAlphanum) :
    ∃ front c back, text = front ++ c :: back ∧ c.isAlphanum = true ∧
      front.countP Char.isAlphanum = k := by
  rw [List.countP_eq_length_filter] at hk
  have hcut : text.filter Char.isAlphanum = (text.filter Char.isAlphanum).take k ++
      (text.filter Char.isAlphanum)[k] :: (text.filter Char.isAlphanum).drop (k + 1) := by
    rw [List.getElem_cons_drop, List.take_append_drop]
  obtain ⟨front, rest, htext, hfront, hrest⟩ := List.filter_eq_append_iff.mp hcut
  obtain ⟨gap, back, hgaps, hgap, hc, -⟩ := List.filter_eq_cons_iff.mp hrest
  refine ⟨front ++ gap, _, back, by rw [List.append_assoc, ← hgaps, ← htext], hc, ?_⟩
  rw [List.countP_append, List.countP_eq_zero.mpr hgap, List.countP_eq_length_filter, hfront,
    List.length_take_of_le hk.le, Nat.add_zero]

/-- The number of a letter or digit tells its run and its place there. -/
theorem exists_isRun_of_lt_countP {text : List Char} {k : ℕ}
    (hk : k < text.countP Char.isAlphanum) :
    ∃ before c rest behind i, text = before ++ c :: rest ++ behind ∧
      IsRun before (c :: rest) behind ∧ i < rest.length + 1 ∧
      k = before.countP Char.isAlphanum + i := by
  obtain ⟨front, d, back, rfl, hd, rfl⟩ := exists_eq_append_of_lt_countP hk
  obtain ⟨before, start, stop, behind, rfl, rfl, hrun⟩ := exists_isRun front back hd
  obtain ⟨c, rest, hfirst⟩ : ∃ c rest, start ++ d :: stop = c :: rest :=
    List.exists_cons_of_ne_nil (List.append_ne_nil_of_right_ne_nil _ (List.cons_ne_nil _ _))
  have hplace : start.length < rest.length + 1 := by
    rw [← List.length_cons (a := c), ← hfirst, List.length_append, List.length_cons]
    omega
  have hstart : ∀ e ∈ start, e.isAlphanum = true :=
    fun e he => hrun.inside e (List.mem_append_left _ he)
  rw [hfirst] at hrun
  refine ⟨before, c, rest, behind, start.length, ?_, hrun, hplace, ?_⟩
  · rw [← hfirst]
    simp only [List.append_assoc, List.cons_append]
  · rw [List.countP_append, List.countP_eq_length.mpr hstart]

/-! ## Upper case

Of the library's modules only all of them together import its lemmas on ASCII case. -/

theorem toUpper_of_not_isLower {c : Char} (h : ¬c.isLower = true) : c.toUpper = c := by
  rw [isLower_iff] at h
  exact dif_neg h

theorem not_isLower_of_isUpper {c : Char} (h : c.isUpper = true) : ¬c.isLower = true := by
  have hbetween : ¬ 'a' ≤ 'Z' := by decide
  intro hlower
  exact hbetween (Char.le_trans ((isLower_iff c).mp hlower).1 ((isUpper_iff c).mp h).2)

theorem isUpper_toUpper_of_isLower {c : Char} (h : c.isLower = true) :
    c.toUpper.isUpper = true := by
  rw [isLower_iff] at h
  have hupper : c.toUpper = ⟨c.val + ('A'.val - 'a'.val), _⟩ := dif_pos h
  rw [isUpper_iff, Char.le_def, Char.le_def, hupper]
  rw [Char.le_def, Char.le_def] at h
  rw [UInt32.le_iff_toNat_le, UInt32.le_iff_toNat_le] at h ⊢
  rw [UInt32.toNat_add]
  -- the capitals come first, so the distance to them wraps around
  have hnumbers : 'a'.val.toNat = 97 ∧ 'z'.val.toNat = 122 ∧ 'A'.val.toNat = 65 ∧
      'Z'.val.toNat = 90 ∧ ('A'.val - 'a'.val).toNat = 2 ^ 32 - 32 := by decide
  omega

/-- The letters are the characters with a capital. -/
theorem isUpper_toUpper_iff (c : Char) : c.toUpper.isUpper = true ↔ c.isAlpha = true := by
  rw [isAlpha_iff_isUpper_or_isLower]
  by_cases hlower : c.isLower = true
  · simp only [isUpper_toUpper_of_isLower hlower, hlower, or_true]
  · rw [toUpper_of_not_isLower hlower, or_iff_left hlower]

theorem isAlphanum_of_isUpper {c : Char} (h : c.isUpper = true) : c.isAlphanum = true := by
  have hletter : c.isAlpha = true := (isAlpha_iff_isUpper_or_isLower c).mpr (Or.inl h)
  rw [Char.isAlphanum, hletter, Bool.true_or]

theorem isAlphanum_toUpper {c : Char} (h : c.isAlphanum = true) : c.toUpper.isAlphanum = true := by
  by_cases hlower : c.isLower = true
  · exact isAlphanum_of_isUpper (isUpper_toUpper_of_isLower hlower)
  · rwa [toUpper_of_not_isLower hlower]

/-! ## Names of texts -/

/-- The letters and digits of a text, in their order, as a name: each run stands behind as many
characters as there are letters and digits before it, and its first character is in upper case. -/
structure IsCamelCase (text name : List Char) : Prop where
  length : name.length = text.countP Char.isAlphanum
  run : ∀ before c rest behind, text = before ++ c :: rest ++ behind →
    IsRun before (c :: rest) behind →
      ∃ front back, name = front ++ c.toUpper :: rest ++ back ∧
        front.length = before.countP Char.isAlphanum

namespace IsCamelCase

variable {text name name' : List Char}

/-- The character of a name that stems from a place in a run. -/
theorem getElem?_eq (h : IsCamelCase text name) {before rest behind : List Char} {c : Char}
    (htext : text = before ++ c :: rest ++ behind) (hrun : IsRun before (c :: rest) behind)
    {i : ℕ} (hi : i < rest.length + 1) :
    name[before.countP Char.isAlphanum + i]? = (c.toUpper :: rest)[i]? := by
  obtain ⟨front, back, rfl, hfront⟩ := h.run before c rest behind htext hrun
  rw [← hfront, List.append_assoc, List.getElem?_append_right (Nat.le_add_right _ _),
    Nat.add_sub_cancel_left, List.getElem?_append_left hi]

/-- A text has one name at most. -/
theorem eq (h : IsCamelCase text name) (h' : IsCamelCase text name') : name = name' := by
  refine List.ext_getElem? fun k => ?_
  -- the runs fix every character that there is, and the length rules out any other
  rcases Nat.lt_or_ge k (text.countP Char.isAlphanum) with hk | hk
  · obtain ⟨before, c, rest, behind, i, htext, hrun, hi, rfl⟩ := exists_isRun_of_lt_countP hk
    rw [h.getElem?_eq htext hrun hi, h'.getElem?_eq htext hrun hi]
  · rw [List.getElem?_eq_none (h.length.trans_le hk), List.getElem?_eq_none (h'.length.trans_le hk)]

end IsCamelCase

/-! ## Cutting a text into words -/

theorem camelCase_append_cons {c : Char} (hc : c.isAlphanum = false) (front back : List Char) :
    camelCase (front ++ c :: back) = camelCase front ++ camelCase back := by
  unfold camelCase
  rw [List.splitOnP_append_cons _ _ (by simp [hc]), List.map_append, List.flatten_append]

theorem camelCase_of_alphanum {run : List Char} (h : ∀ c ∈ run, c.isAlphanum = true) :
    camelCase run = capitalize run := by
  have hword : run.splitOnP (fun c => !c.isAlphanum) = [run] :=
    List.splitOnP_eq_singleton fun c hc => by simp [h c hc]
  rw [camelCase, hword, List.map_singleton, List.flatten_singleton]

@[simp]
theorem camelCase_nil : camelCase [] = [] :=
  camelCase_of_alphanum (List.forall_mem_nil _)

theorem camelCase_word_append {run : List Char} (h : ∀ c ∈ run, c.isAlphanum = true) {c : Char}
    (hc : c.isAlphanum = false) (rest : List Char) :
    camelCase (run ++ c :: rest) = capitalize run ++ camelCase rest := by
  rw [camelCase_append_cons hc, camelCase_of_alphanum h]

/-- A gap belongs to no word, so a text can be cut in front of one. -/
theorem camelCase_append_of_head? (front : List Char) {back : List Char}
    (h : ∀ c ∈ back.head?, c.isAlphanum = false) :
    camelCase (front ++ back) = camelCase front ++ camelCase back := by
  cases back with
  | nil => simp
  | cons c back =>
      have hc := h c rfl
      have hback : camelCase (c :: back) = camelCase back := camelCase_append_cons hc [] back
      rw [camelCase_append_cons hc, hback]

theorem camelCase_append_of_getLast? {front : List Char}
    (h : ∀ c ∈ front.getLast?, c.isAlphanum = false) (back : List Char) :
    camelCase (front ++ back) = camelCase front ++ camelCase back := by
  rcases List.eq_nil_or_concat front with rfl | ⟨front, c, rfl⟩
  · simp
  · rw [List.concat_eq_append] at h ⊢
    have hc := h c List.getLast?_concat
    have hfront : camelCase (front ++ [c]) = camelCase front := by
      rw [camelCase_append_cons hc, camelCase_nil, List.append_nil]
    rw [List.append_assoc, List.singleton_append, camelCase_append_cons hc, hfront]

/-- A text is a word, or a word, a character that is in no word, and another text. -/
@[elab_as_elim]
theorem words_induction {motive : List Char → Prop}
    (word : ∀ run, (∀ c ∈ run, c.isAlphanum = true) → motive run)
    (gap : ∀ run c rest, (∀ d ∈ run, d.isAlphanum = true) → c.isAlphanum = false → motive rest →
      motive (run ++ c :: rest)) (text : List Char) : motive text := by
  induction hlength : text.length using Nat.strong_induction_on generalizing text with
  | _ n ih =>
      subst hlength
      have hrun : ∀ c ∈ text.takeWhile Char.isAlphanum, c.isAlphanum = true :=
        fun c hc => List.mem_takeWhile_imp hc
      have hcut := List.takeWhile_append_dropWhile (p := Char.isAlphanum) (l := text)
      cases hdrop : text.dropWhile Char.isAlphanum with
      | nil =>
          rw [hdrop, List.append_nil] at hcut
          exact word text (hcut ▸ hrun)
      | cons c rest =>
          have hc := List.head?_dropWhile_not Char.isAlphanum text
          rw [hdrop] at hc hcut
          have hshorter : rest.length < text.length := by
            rw [← hcut, List.length_append, List.length_cons]
            omega
          rw [← hcut]
          exact gap _ c rest hrun hc (ih _ hshorter rest rfl)

theorem length_capitalize (run : List Char) : (capitalize run).length = run.length := by
  cases run <;> rfl

theorem length_camelCase (text : List Char) :
    (camelCase text).length = text.countP Char.isAlphanum := by
  induction text using words_induction with
  | word run h => rw [camelCase_of_alphanum h, length_capitalize, List.countP_eq_length.mpr h]
  | gap run c rest h hc ih =>
      rw [camelCase_word_append h hc, List.length_append, ih, length_capitalize,
        List.countP_append, List.countP_eq_length.mpr h, List.countP_cons_of_neg (by simp [hc])]

theorem isCamelCase_camelCase (text : List Char) : IsCamelCase text (camelCase text) where
  length := length_camelCase text
  run := by
    rintro before c rest behind rfl hrun
    refine ⟨camelCase before, camelCase behind, ?_, length_camelCase before⟩
    rw [camelCase_append_of_head? _ hrun.behind, camelCase_append_of_getLast? hrun.before,
      camelCase_of_alphanum hrun.inside]
    rfl

theorem isCamelCase_iff {text name : List Char} :
    IsCamelCase text name ↔ name = camelCase text := by
  constructor
  · exact fun h => h.eq (isCamelCase_camelCase text)
  · rintro rfl
    exact isCamelCase_camelCase text

theorem isAlphanum_of_mem_capitalize {run : List Char} (h : ∀ c ∈ run, c.isAlphanum = true) :
    ∀ c ∈ capitalize run, c.isAlphanum = true := by
  cases run with
  | nil => exact List.forall_mem_nil _
  | cons c run =>
      rw [List.forall_mem_cons] at h
      exact List.forall_mem_cons.mpr ⟨isAlphanum_toUpper h.1, h.2⟩

theorem isAlphanum_of_mem_camelCase (text : List Char) :
    ∀ c ∈ camelCase text, c.isAlphanum = true := by
  induction text using words_induction with
  | word run h =>
      rw [camelCase_of_alphanum h]
      exact isAlphanum_of_mem_capitalize h
  | gap run c rest h hc ih =>
      rw [camelCase_word_append h hc]
      exact List.forall_mem_append.mpr ⟨isAlphanum_of_mem_capitalize h, ih⟩

theorem head?_capitalize {run : List Char} (h : ∀ c ∈ run, c.isAlphanum = true) :
    (capitalize run).head? = (run.find? Char.isAlphanum).map Char.toUpper := by
  cases run with
  | nil => rfl
  | cons c run =>
      rw [List.find?_cons_of_pos (h c List.mem_cons_self)]
      rfl

/-- A name starts with the first letter or digit of the text. -/
theorem head?_camelCase (text : List Char) :
    (camelCase text).head? = (text.find? Char.isAlphanum).map Char.toUpper := by
  induction text using words_induction with
  | word run h => rw [camelCase_of_alphanum h, head?_capitalize h]
  | gap run c rest h hc ih =>
      rw [camelCase_word_append h hc, List.head?_append, head?_capitalize h, ih, List.find?_append,
        List.find?_cons_of_neg (by simp [hc]), Option.map_or]

/-! ## Names of structs -/

theorem isStructName_iff (name : String) :
    isStructName name = true ↔
      (∃ c ∈ name.toList.head?, c.isUpper = true) ∧ ∀ c ∈ name.toList, c.isAlphanum = true := by
  unfold isStructName
  cases name.toList with
  | nil => simp
  | cons c cs => simp +contextual [isAlphanum_of_isUpper]

theorem isStructName_camelCase_iff (text : List Char) :
    isStructName (String.ofList (camelCase text)) = true ↔
      ∃ c, text.find? Char.isAlphanum = some c ∧ c.isAlpha = true := by
  rw [isStructName_iff, String.toList_ofList, head?_camelCase,
    and_iff_left (isAlphanum_of_mem_camelCase text)]
  simp only [Option.mem_def, Option.map_eq_some_iff, exists_exists_and_eq_and, isUpper_toUpper_iff]

theorem structName?_eq_some_iff {schemaName name : String} :
    structName? schemaName = some name ↔
      isStructName name = true ∧ name = String.ofList (camelCase schemaName.toList) := by
  dsimp only [structName?]
  split_ifs with h
  · rw [Option.some_inj]
    exact ⟨fun hname => ⟨hname ▸ h, hname.symm⟩, fun hname => hname.2.symm⟩
  · refine iff_of_false nofun ?_
    rintro ⟨hname, rfl⟩
    exact h hname

/-- The names of structs are the names that are derived from themselves. -/
theorem structName?_eq_self_iff (name : String) :
    structName? name = some name ↔ isStructName name = true := by
  rw [structName?_eq_some_iff, and_iff_left_iff_imp]
  intro h
  obtain ⟨⟨c, hc, hupper⟩, hinside⟩ := (isStructName_iff name).mp h
  obtain ⟨cs, hcs⟩ := List.head?_eq_some_iff.mp hc
  have hfirst : c.toUpper = c :=
    toUpper_of_not_isLower (not_isLower_of_isUpper hupper)
  rw [camelCase_of_alphanum hinside, hcs, capitalize, hfirst, ← hcs, String.ofList_toList]

theorem isSome_structName?_iff (schemaName : String) :
    (structName? schemaName).isSome = true ↔
      ∃ c, schemaName.toList.find? Char.isAlphanum = some c ∧ c.isAlpha = true := by
  rw [← isStructName_camelCase_iff, Option.isSome_iff_exists]
  simp [structName?_eq_some_iff]

example : structName? "-2fa" = none ∧ structName? "--" = none := by decide

/-- A module under the name of a struct is refused for no other name than that of a field. -/
theorem reserved_of_emitAs_eq_error {s : Schema} {structName : String} {e : InvalidIdentifier}
    (hname : isStructName structName = true) (h : emitAs s structName = .error e) :
    ∃ f ∈ s.fields, f.name ∈ reservedWords ∧ e = ⟨f.name⟩ := by
  refine (Module.of_eq_error (of_emitAs_eq_error h)).resolve_left ?_
  rintro ⟨hrefused, -⟩
  rw [hname] at hrefused
  cases hrefused

/-- A struct's name can be derived from the name of a schema exactly if the first letter or digit
of that is a letter.  Then it is the one text made of all its letters and digits in their order,
with the first of each run in upper case; modules are written under it unless they are refused for
the name of a field; and it is the name that is derived from itself. -/
theorem structName_normalForm (schemaName : String) :
    ((structName? schemaName).isSome = true ↔
      ∃ c, schemaName.toList.find? Char.isAlphanum = some c ∧ c.isAlpha = true) ∧
    ∀ name, structName? schemaName = some name →
      (∀ text, IsCamelCase schemaName.toList text ↔ text = name.toList) ∧
      isStructName name = true ∧
      (∀ s e, emitAs s name = .error e →
        ∃ f ∈ s.fields, f.name ∈ reservedWords ∧ e = ⟨f.name⟩) ∧
      structName? name = some name := by
  refine ⟨isSome_structName?_iff schemaName, fun name h => ?_⟩
  obtain ⟨hname, hcase⟩ := structName?_eq_some_iff.mp h
  refine ⟨fun text => ?_, hname, fun s e => reserved_of_emitAs_eq_error hname,
    (structName?_eq_self_iff name).mpr hname⟩
  rw [isCamelCase_iff, hcase, String.toList_ofList]

/-- A name with gaps at its start and at its end, a digit behind a gap and a letter beyond ASCII. -/
theorem structName_normalForm_option :
    structName? "--my_option 2fa-éx." = some "MyOption2faX" ∧
      IsCamelCase "--my_option 2fa-éx.".toList "MyOption2faX".toList ∧
      isStructName "MyOption2faX" = true ∧ structName? "MyOption2faX" = some "MyOption2faX" := by
  have hname : structName? "--my_option 2fa-éx." = some "MyOption2faX" := by decide
  obtain ⟨hcase, hstruct, -, hself⟩ := (structName_normalForm "--my_option 2fa-éx.").2 _ hname
  exact ⟨hname, (hcase _).mpr rfl, hstruct, hself⟩

end CommandSchema.Generated
