import CommandSchema.Command
import CommandSchema.Proofs.Parse.Wording
import CommandSchema.Proofs.SchemaSet.Merge
import CommandSchema.Proofs.Text.Blank

/-!
# Batches line by line

A batch says about each of its lines what the words of the line would give as a command line, with
the number of the line in front.  Nothing that it says breaks into lines of its own, so the lines
of the output go with the lines of the text.
-/

namespace CommandSchema

open FileTree Invocation SchemaSet Text

variable {s : Schema}

/-! ## Lines that are parsed -/

namespace Batch

/-- A line with nothing but blanks on it, or with a number sign in front. -/
def IsPassedOver (line : List Char) : Prop :=
  trim line = [] ∨ (trim line).head? = some '#'

instance (line : List Char) : Decidable (IsPassedOver line) :=
  inferInstanceAs (Decidable (_ ∨ _))

/-- The lines of a text that are not passed over, with their numbers. -/
def numberedLines (text : String) : List (List Char × ℕ) :=
  ((lines text.toList).zipIdx 1).filter fun line => ¬IsPassedOver line.1

/-- The words of a line, as the tokens of a command line. -/
def tokens (line : List Char) : List String :=
  (words line).map String.ofList

theorem commandLines_eq (text : String) :
    commandLines text = (numberedLines text).map fun line => (line.2, tokens line.1) := by
  rw [commandLines, numberedLines, List.zipIdx_succ, ← List.filterMap_eq_filter,
    List.filterMap_map, List.map_filterMap]
  refine List.filterMap_congr fun (line, i) _ => ?_
  by_cases hpassed : IsPassedOver line
  · have hempty : (trim line).isEmpty = true ∨ (trim line).head? = some '#' :=
      hpassed.imp_left List.isEmpty_iff.mpr
    exact (if_pos hempty).trans (by simp [Option.guard, hpassed])
  · have hfull : ¬((trim line).isEmpty = true ∨ (trim line).head? = some '#') :=
      fun h => hpassed (h.imp_left List.isEmpty_iff.mp)
    exact (if_neg hfull).trans (by simp [Option.guard, hpassed, tokens, words_trim])

theorem records_eq (s : Schema) (text : String) :
    records s text = (numberedLines text).map fun line => ⟨line.2, s.parse (tokens line.1)⟩ := by
  rw [records, commandLines_eq, List.map_map]
  rfl

theorem isLine_of_mem_tokens {line : List Char} {token : String} (h : token ∈ tokens line) :
    IsLine token := by
  obtain ⟨word, hword, rfl⟩ := List.mem_map.mp h
  intro hmem
  rw [String.toList_ofList] at hmem
  exact absurd (not_blank_of_mem_words hword _ hmem) (by decide)

/-! ## What is said about a line -/

/-- The line that a result or an error makes, after its number. -/
def said (s : Schema) (line : List Char) : String :=
  match s.parse (tokens line) with
  | .ok bindings => bindings.render
  | .error e => "error: " ++ e.message

theorem isLine_said (hname : IsLine s.name) (line : List Char) : IsLine (said s line) := by
  unfold said
  cases hparse : s.parse (tokens line) with
  | ok bindings => exact Bindings.isLine_render hname hparse
  | error e =>
      have hmessage := ParseError.isLine_message_of_parse (fun _ => isLine_of_mem_tokens) hparse
      exact isLine_append.mpr ⟨by decide, hmessage⟩

/-- The lines of the output are what is said about the lines of the text. -/
theorem splitOn_render (hname : IsLine s.name) (text : String) :
    (render (records s text) .text).toList.splitOn '\n' =
      (numberedLines text).map (fun line =>
        (decimal line.2 ++ ": " ++ said s line.1).toList) ++ [[]] := by
  have hline : ∀ line : List Char × ℕ, IsLine (decimal line.2 ++ ": " ++ said s line.1) :=
    fun line => isLine_append.mpr
      ⟨isLine_append.mpr ⟨isLine_decimal _, by decide⟩, isLine_said hname line.1⟩
  have hrender : ∀ line : List Char × ℕ,
      BatchRecord.render ⟨line.2, s.parse (tokens line.1)⟩ =
        decimal line.2 ++ ": " ++ said s line.1 ++ "\n" := by
    intro line
    unfold BatchRecord.render said
    cases s.parse (tokens line.1) <;> rfl
  have hrecords : (records s text).map BatchRecord.render =
      ((numberedLines text).map fun line => decimal line.2 ++ ": " ++ said s line.1).map
        (· ++ "\n") := by
    rw [records_eq, List.map_map, List.map_map]
    exact List.map_congr_left fun line _ => hrender line
  -- no line feed stands within what is said, so the output is cut between the records only
  rw [render, hrecords, splitOn_join_lines (List.forall_mem_map.mpr fun line _ => hline line),
    List.map_map]
  rfl

end Batch

/-! ## Command lines one by one -/

/-- The line that an invocation prints, or the line of its complaint. -/
inductive Outcome.Says (o : Outcome) : String → Prop
  | prints {line : String} (accepted : o.complaint = none) (output : o.output = line ++ "\n") :
      o.Says line
  | complains {e : Complaint} (rejected : o.complaint = some e) : o.Says ("error: " ++ e.message)

namespace Command

open Batch

variable {t : FileTree} {definitions input : Path} {schema text : String} {format : OutputFormat}

theorem withNewline_render (b : Bindings) : withNewline b.render = b.render ++ "\n" := by
  have hlast : b.render.toList.getLast? = some '>' := by
    rw [Bindings.render, String.toList_append]
    exact List.getLast?_concat
  rw [withNewline, if_neg]
  rw [hlast]
  decide

/-- What becomes of the words of a line as a command line by itself. -/
def parseLine (t : FileTree) (definitions : Path) (schema : String) (line : List Char) : Outcome :=
  perform t (.parse definitions schema .text (tokens line))

theorem parseLine_eq (hs : schemaOf t definitions schema = .ok s) (line : List Char) :
    parseLine t definitions schema line =
      match s.parse (tokens line) with
      | .ok bindings => ⟨bindings.render ++ "\n", none, t⟩
      | .error e => ⟨"", some (.rejected e), t⟩ := by
  have hperform : parseLine t definitions schema line =
      observed t (parse t definitions schema .text (tokens line)) := rfl
  rw [hperform, parse, hs, ok_bind]
  cases s.parse (tokens line) with
  | ok bindings =>
      change (⟨withNewline bindings.render, none, t⟩ : Outcome) = _
      rw [withNewline_render]
  | error e => rfl

theorem says_parseLine (hs : schemaOf t definitions schema = .ok s) (line : List Char) :
    (parseLine t definitions schema line).Says (said s line) := by
  rw [parseLine_eq hs, said]
  cases s.parse (tokens line) with
  | ok bindings => exact .prints rfl rfl
  | error e => exact .complains (e := .rejected e) rfl

/-- The lines of a text that are rejected as command lines. -/
def rejectedLines (t : FileTree) (definitions : Path) (schema text : String) :
    List (List Char × ℕ) :=
  (numberedLines text).filter fun line => (parseLine t definitions schema line.1).complaint.isSome

theorem length_rejectedLines (hs : schemaOf t definitions schema = .ok s) (text : String) :
    ((records s text).filter BatchRecord.isRejected).length =
      (rejectedLines t definitions schema text).length := by
  have hrejected : ∀ line : List Char × ℕ,
      BatchRecord.isRejected ⟨line.2, s.parse (tokens line.1)⟩ =
        (parseLine t definitions schema line.1).complaint.isSome := by
    intro line
    rw [parseLine_eq hs, BatchRecord.isRejected]
    cases s.parse (tokens line.1) <;> rfl
  rw [records_eq, List.filter_map, List.length_map, rejectedLines]
  exact congrArg List.length (List.filter_congr fun line _ => hrejected line)

/-- A batch parses the lines of a text one by one. -/
structure ParsesLines (t : FileTree) (definitions : Path) (schema text : String)
    (format : OutputFormat) (o : Outcome) : Prop where
  /-- As text, the output has one line for each line that is not passed over: the number of the
  line, and what its words give by themselves. -/
  shows : format = .text → ∃ shown : List (List Char),
    o.output.toList.splitOn '\n' = shown ++ [[]] ∧
      List.Forall₂ (fun line shown => ∃ said : String,
        (parseLine t definitions schema line.1).Says said ∧
          shown = (decimal line.2 ++ ": " ++ said).toList) (numberedLines text) shown
  /-- The batch succeeds if no line is rejected. -/
  succeeds : rejectedLines t definitions schema text = [] → o.complaint = none ∧ o.status = 0
  /-- Otherwise it says how many lines are rejected. -/
  fails : rejectedLines t definitions schema text ≠ [] →
    o.complaint.map Complaint.message =
        some (decimal (rejectedLines t definitions schema text).length ++ " of " ++
          decimal (numberedLines text).length ++ " line(s) rejected") ∧
      o.status = 2

theorem perform_batch {records : List BatchRecord}
    (h : batch t definitions schema input = .ok records) :
    perform t (.batch definitions schema input format) =
      ⟨render records format, batchComplaint? records, t⟩ := by
  unfold perform
  dsimp only
  rw [h]

theorem batch_parses_lines {arguments : List String}
    (hi : ofArguments? false arguments = some (.batch definitions schema input format))
    (hs : schemaOf t definitions schema = .ok s) (hname : '\n' ∉ s.name.toList)
    (htext : t.readText input = .ok text) :
    ParsesLines t definitions schema text format (run t arguments) := by
  have hbatch : batch t definitions schema input = .ok (records s text) := by
    rw [batch, hs, ok_bind, htext]
    rfl
  have hrun : run t arguments =
      ⟨render (records s text) format, batchComplaint? (records s text), t⟩ := by
    rw [run, hi]
    exact perform_batch hbatch
  have hcount : (records s text).length = (numberedLines text).length := by
    rw [records_eq, List.length_map]
  rw [hrun]
  refine ⟨?_, ?_, ?_⟩
  · rintro rfl
    refine ⟨_, splitOn_render hname text, List.forall₂_map_right_iff.mpr ?_⟩
    exact List.forall₂_same.mpr fun line _ => ⟨_, says_parseLine hs line.1, rfl⟩
  · intro hnone
    have hzero : batchComplaint? (records s text) = none := by
      rw [batchComplaint?, length_rejectedLines hs, hnone]
      rfl
    rw [Outcome.status, hzero]
    exact ⟨rfl, rfl⟩
  · intro hsome
    have hcomplaint : batchComplaint? (records s text) =
        some (.linesRejected (rejectedLines t definitions schema text).length
          (numberedLines text).length) := by
      rw [batchComplaint?, length_rejectedLines hs, hcount]
      exact if_neg fun h => hsome (List.length_eq_zero_iff.mp h)
    rw [Outcome.status, hcomplaint]
    exact ⟨rfl, rfl⟩

/-- A comment, a line that is accepted, a blank line and a line that is rejected. -/
def alphaLines : String :=
  "# nothing\n--\n\n  x y\n"

def alphaArguments : List String :=
  ["batch", "./a.json", "--schema", "alpha", "--input", "./b.json"]

theorem batch_parses_lines_alpha :
    numberedLines alphaLines = [("--".toList, 2), ("  x y".toList, 4)] ∧
      ∃ t, schemaOf t ⟨"./a.json"⟩ "alpha" = .ok alpha ∧ '\n' ∉ alpha.name.toList ∧
        t.readText ⟨"./b.json"⟩ = .ok alphaLines ∧
        ParsesLines t ⟨"./a.json"⟩ "alpha" alphaLines .text (run t alphaArguments) := by
  have hi : ofArguments? false alphaArguments =
      some (.batch ⟨"./a.json"⟩ "alpha" ⟨"./b.json"⟩ .text) := by decide +kernel
  have hname : '\n' ∉ alpha.name.toList := by decide
  have hload := extendText_alphaText
  refine ⟨by decide +kernel, twoFiles alphaText.toUTF8 alphaLines.toUTF8, ?_⟩
  generalize alphaText = definitions, alphaLines = text at *
  have hloaded : [⟨"./a.json"⟩].foldlM (load (twoFiles definitions.toUTF8 text.toUTF8))
      (empty (.multiple [])) = .ok ⟨[alpha], .multiple []⟩ := by
    rw [List.foldlM_cons, load_eq_ok_of_file rfl rfl (by decide +kernel) hload]
    rfl
  have hset := ofPaths_eq_ok_iff.mpr ⟨_, hloaded, rfl⟩
  have hs : schemaOf (twoFiles definitions.toUTF8 text.toUTF8) ⟨"./a.json"⟩ "alpha" =
      .ok alpha := by
    rw [schemaOf, hset]
    rfl
  have htext : (twoFiles definitions.toUTF8 text.toUTF8).readText ⟨"./b.json"⟩ = .ok text :=
    readText_eq_ok_iff.mpr ⟨["w", "b.json"], rfl, rfl⟩
  exact ⟨hs, hname, htext, batch_parses_lines hi hs hname htext⟩

end Command

end CommandSchema
