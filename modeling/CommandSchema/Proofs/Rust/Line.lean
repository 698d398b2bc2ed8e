import CommandSchema.Proofs.Rust.Token

/-!
# Source in lines

A text that is written line by line is read line by line, as long as no token goes on
from one line to the next.
-/

namespace CommandSchema.Rust

/-- Lines as a text. -/
def unlines (lines : List String) : String :=
  String.join (lines.map (· ++ "\n"))

theorem unlines_append (lines more : List String) :
    unlines (lines ++ more) = unlines lines ++ unlines more := by
  rw [unlines, List.map_append, String.join_append, unlines, unlines]

theorem toList_unlines_cons (line : String) (lines : List String) :
    (unlines (line :: lines)).toList = (line.toList ++ ['\n']) ++ (unlines lines).toList := by
  have hbreak : "\n".toList = ['\n'] := String.toList_ofList
  rw [unlines, List.map_cons, String.join_cons, String.toList_append, String.toList_append,
    hbreak, unlines]

/-- Lines that are read one by one are read together. -/
theorem Closed.unlines_cons {line : String} {lines : List String} {tokens more : List Token}
    (h : Closed line.toList tokens) (h' : Closed (unlines lines).toList more) :
    Closed (unlines (line :: lines)).toList (tokens ++ more) := by
  have hbreak : Closed ['\n'] [] := rfl
  have hline := h.append hbreak
  rw [List.append_nil] at hline
  rw [toList_unlines_cons]
  exact hline.append h'

section Leads

variable {σ : Type} {step : σ → Token → Option σ} {line : String} {lines more : List String}
  {s s' s'' : σ}

theorem Leads.newline {text : List Char} (h : Leads step text s s') :
    Leads step (text ++ ['\n']) s s' :=
  h.trans ⟨[], rfl, rfl⟩

theorem Leads.unlines_nil : Leads step (unlines []).toList s s :=
  ⟨[], rfl, rfl⟩

theorem Leads.unlines_cons (h : Leads step (line.toList ++ ['\n']) s s')
    (h' : Leads step (unlines lines).toList s' s'') :
    Leads step (unlines (line :: lines)).toList s s'' := by
  rw [toList_unlines_cons]
  exact h.trans h'

theorem Leads.unlines_append (h : Leads step (unlines lines).toList s s')
    (h' : Leads step (unlines more).toList s' s'') :
    Leads step (unlines (lines ++ more)).toList s s'' := by
  rw [Rust.unlines_append, String.toList_append]
  exact h.trans h'

/-- Lines that leave a machine in the state in which they find it. -/
theorem Leads.unlines_of_forall
    (h : ∀ line ∈ lines, Leads step (line.toList ++ ['\n']) s s) :
    Leads step (unlines lines).toList s s := by
  induction lines with
  | nil => exact Leads.unlines_nil
  | cons line lines ih =>
      rw [List.forall_mem_cons] at h
      exact Leads.unlines_cons h.1 (ih h.2)

end Leads

/-! ## Comments -/

theorem run_comment {cs : List Char} (h : '\n' ∉ cs) :
    Mode.run .comment (cs ++ ['\n']) = some (.blank, []) := by
  induction cs with
  | nil => rfl
  | cons c cs ih =>
      rw [List.mem_cons, not_or] at h
      simp [Mode.run, Mode.step, Ne.symm h.1, ih h.2]

/-- A comment up to the end of its line holds no token. -/
theorem closed_comment {cs : List Char} (h : '\n' ∉ cs) :
    Closed ('/' :: '/' :: cs ++ ['\n']) [] := by
  have hopen : Mode.run .blank ['/', '/'] = some (.comment, []) := rfl
  change Closed (['/', '/'] ++ (cs ++ ['\n'])) []
  rw [Closed, Mode.run_append_of_run hopen, run_comment h]
  rfl

theorem closed_of_prefix {line : List Char} (h : "//".toList <+: line) (hbreak : '\n' ∉ line) :
    Closed (line ++ ['\n']) [] := by
  have hslashes : "//".toList = ['/', '/'] := String.toList_ofList
  obtain ⟨text, rfl⟩ := h
  rw [hslashes] at hbreak ⊢
  exact closed_comment fun hmem => hbreak (List.mem_append_right _ hmem)

theorem closed_unlines_of_forall {lines : List String}
    (h : ∀ line ∈ lines, Closed (line.toList ++ ['\n']) []) :
    Closed (unlines lines).toList [] := by
  induction lines with
  | nil => rfl
  | cons line lines ih =>
      rw [List.forall_mem_cons] at h
      rw [toList_unlines_cons]
      exact h.1.append (ih h.2)

end CommandSchema.Rust
