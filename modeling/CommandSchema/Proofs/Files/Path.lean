import CommandSchema.Files.Path
import CommandSchema.Proofs.Text.Blank

/-!
# Names in paths

A path leads through the names between its slashes.  A name that a directory can hold stands for
itself: behind the path to the directory it is one name more.
-/

namespace CommandSchema

/-- A name that a directory can hold. -/
structure IsName (name : String) : Prop where
  not_empty : name ≠ ""
  not_same : name ≠ "."
  not_parent : name ≠ ".."
  no_slash : '/' ∉ name.toList
  no_zero : '\x00' ∉ name.toList
  short : name.utf8ByteSize ≤ 255

namespace Path

variable {p : Path} {name : String}

theorem names_slash (front back : String) :
    (⟨front ++ "/" ++ back⟩ : Path).names = (⟨front⟩ : Path).names ++ (⟨back⟩ : Path).names := by
  have htext : (front ++ "/" ++ back).toList = front.toList ++ '/' :: back.toList := by simp
  have hsplit : (front ++ "/" ++ back).toList.splitOn '/' =
      front.toList.splitOn '/' ++ back.toList.splitOn '/' := by
    rw [htext]
    exact List.splitOnP_append_cons _ _ (beq_self_eq_true '/')
  rw [names, hsplit, List.filter_append, List.map_append]
  rfl

theorem names_eq_singleton (h : IsName name) : (⟨name⟩ : Path).names = [name] := by
  have hne : name.toList ≠ [] := fun hnil => h.not_empty (by simpa using hnil)
  rw [names, List.splitOn_eq_singleton h.no_slash, List.filter_cons_of_pos (by simpa using hne),
    List.filter_nil, List.map_singleton, String.ofList_toList]

/-- Before the name in a directory stands one slash, which the path may have brought along. -/
theorem exists_front (hp : p.text ≠ "") (name : String) :
    ∃ front gap, p.text = front ++ gap ∧ (front ≠ "" ∧ gap = "" ∨ gap = "/") ∧
      p.join name = ⟨front ++ "/" ++ name⟩ := by
  by_cases hslash : p.text.toList.getLast? = some '/'
  · obtain ⟨front, hfront⟩ := List.getLast?_eq_some_iff.mp hslash
    have htext : p.text = String.ofList front ++ "/" := by
      rw [← String.toList_inj, hfront]
      simp
    refine ⟨String.ofList front, "/", htext, .inr rfl, ?_⟩
    rw [join, if_pos (.inr hslash), htext]
  · refine ⟨p.text, "", by simp, .inl ⟨hp, rfl⟩, ?_⟩
    rw [join, if_neg (not_or.mpr ⟨hp, hslash⟩)]

theorem names_join (hp : p.text ≠ "") (h : IsName name) :
    (p.join name).names = p.names ++ [name] := by
  obtain ⟨front, gap, htext, hgap, hjoin⟩ := exists_front hp name
  have hfront : p.names = (⟨front⟩ : Path).names := by
    rcases hgap with ⟨-, rfl⟩ | rfl
    · rw [names, htext, String.append_empty]
      rfl
    · have hlast := names_slash front ""
      rw [String.append_empty] at hlast
      rw [names, htext]
      exact hlast.trans (List.append_nil _)
  rw [hjoin, names_slash, names_eq_singleton h, hfront]

theorem isAbsolute_join (hp : p.text ≠ "") (name : String) :
    (p.join name).isAbsolute = p.isAbsolute := by
  obtain ⟨front, gap, htext, hgap, hjoin⟩ := exists_front hp name
  rw [hjoin, isAbsolute, isAbsolute, htext]
  rcases hgap with ⟨hfront, rfl⟩ | rfl
  · obtain ⟨c, cs, hcs⟩ := List.exists_cons_of_ne_nil (mt String.toList_eq_nil_iff.mp hfront)
    simp [hcs]
  · cases hcs : front.toList <;> simp [hcs]

theorem endsWithSlash_join (h : IsName name) : (p.join name).endsWithSlash = false := by
  obtain ⟨front, c, hc⟩ : ∃ front c, name.toList = front ++ [c] :=
    ⟨_, _, (List.dropLast_concat_getLast (mt String.toList_eq_nil_iff.mp h.not_empty)).symm⟩
  have hne : c ≠ '/' := by
    rintro rfl
    exact h.no_slash (by simp [hc])
  obtain ⟨before, hbefore⟩ : ∃ before, (p.join name).text.toList = before ++ [c] := by
    rw [join]
    split_ifs
    · exact ⟨p.text.toList ++ front, by simp [hc]⟩
    · exact ⟨p.text.toList ++ '/' :: front, by simp [hc]⟩
  rw [endsWithSlash, hbefore, List.getLast?_concat]
  simpa using hne

theorem zero_mem_join (h : IsName name) :
    '\x00' ∈ (p.join name).text.toList ↔ '\x00' ∈ p.text.toList := by
  have hname := h.no_zero
  rw [join]
  split_ifs <;> simp [hname]

theorem join_ne_empty (h : IsName name) : (p.join name).text ≠ "" := by
  have hname := h.not_empty
  rw [join]
  split_ifs <;> simp [hname]

end Path

end CommandSchema
