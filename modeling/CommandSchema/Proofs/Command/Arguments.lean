import CommandSchema.Command.Invocation
import Mathlib.Data.List.Basic

/-!
# Arguments one by one

Sorting the arguments of a command takes one piece after the other.  A switch that is not given can
therefore be given in front of all others, and nothing else changes; behind `generate` this turns
the invocation that writes a module into the one that compares it.
-/

namespace CommandSchema.Invocation

/-! ## Pieces -/

/-- What the next arguments add to those that are sorted. -/
inductive Piece
  | value (name value : String)
  | switch (name : String)
  | positionals (texts : List String)
  | tokens (texts : List String)

/-- The arguments with one piece more, unless it is an option that is given already. -/
def Arguments.add? (a : Arguments) : Piece → Option Arguments
  | .value name value => a.addValue? name value
  | .switch name => a.addSwitch? name
  | .positionals texts => some { a with positionals := a.positionals ++ texts }
  | .tokens texts => some { a with tokens := texts }

/-- The piece that an argument begins, and the arguments after it. -/
def piece? (accepted : Accepted) (argument : String) (rest : List String) :
    Option (Piece × List String) :=
  match argument.toList with
  | ['-', '-'] => some (if accepted.hasTokens then .tokens rest else .positionals rest, [])
  | '-' :: '-' :: body =>
    match splitOption body with
    | (name, some value) =>
      if accepted.valued.contains name then some (.value name value, rest) else none
    | (name, none) =>
      if accepted.valued.contains name then
        match rest with
        | value :: rest => if isValue value then some (.value name value, rest) else none
        | [] => none
      else if accepted.switches.contains name then some (.switch name, rest)
      else none
  | ['-', 'v'] => some (.switch verbose, rest)
  | ['-'] => some (.positionals [argument], rest)
  | '-' :: _ => none
  | _ => some (.positionals [argument], rest)

variable {accepted : Accepted} {argument : String} {arguments rest later : List String}
  {a a' r : Arguments} {piece : Piece}

theorem sort?_cons (accepted : Accepted) (argument : String) (rest : List String) (a : Arguments) :
    sort? accepted (argument :: rest) a =
      (piece? accepted argument rest).bind fun next =>
        (a.add? next.1).bind (sort? accepted next.2) := by
  fun_cases piece? accepted argument rest
  all_goals rw [sort?]
  case case1 hdashes =>
    simp only [hdashes]
    split_ifs <;> rfl
  all_goals simp_all [Arguments.add?]

/-- Sorting, piece by piece. -/
inductive Sorts (accepted : Accepted) : List String → Arguments → Arguments → Prop
  | nil (a : Arguments) : Sorts accepted [] a a
  | cons {argument : String} {rest later : List String} {piece : Piece} {a a' r : Arguments}
      (hpiece : piece? accepted argument rest = some (piece, later))
      (hadd : a.add? piece = some a') (h : Sorts accepted later a' r) :
      Sorts accepted (argument :: rest) a r

theorem Sorts.sort? (h : Sorts accepted arguments a r) : sort? accepted arguments a = some r := by
  induction h with
  | nil a => rfl
  | cons hpiece hadd _ ih =>
      rw [sort?_cons, hpiece, Option.bind_some, hadd]
      exact ih

/-! ## One more switch -/

/-- The arguments with a comparison asked for. -/
def Arguments.checked (a : Arguments) : Arguments :=
  { a with switches := "check" :: a.switches }

theorem Arguments.switches_subset_of_add? (h : a.add? piece = some a') :
    a.switches ⊆ a'.switches := by
  cases piece with
  | value name value =>
      rw [add?, addValue?] at h
      split_ifs at h
      obtain rfl := Option.some.inj h
      exact List.Subset.refl _
  | switch name =>
      rw [add?, addSwitch?] at h
      split_ifs at h
      obtain rfl := Option.some.inj h
      exact List.subset_append_left _ _
  | _ =>
      obtain rfl := Option.some.inj h
      exact List.Subset.refl _

theorem Arguments.add?_checked (h : a.add? piece = some a') (ha' : "check" ∉ a'.switches) :
    a.checked.add? piece = some a'.checked := by
  cases piece with
  | value name value =>
      rw [add?, addValue?] at h ⊢
      split_ifs at h with hgiven
      obtain rfl := Option.some.inj h
      exact if_neg hgiven
  | switch name =>
      rw [add?, addSwitch?] at h ⊢
      split_ifs at h with hgiven
      obtain rfl := Option.some.inj h
      have hname : name ≠ "check" := by
        rintro rfl
        exact ha' (by simp)
      refine if_neg ?_
      simpa [has, checked, hname] using hgiven
  | _ =>
      obtain rfl := Option.some.inj h
      rfl

theorem Sorts.switches_subset (h : Sorts accepted arguments a r) : a.switches ⊆ r.switches := by
  induction h with
  | nil a => exact List.Subset.refl _
  | cons _ hadd _ ih => exact List.Subset.trans (Arguments.switches_subset_of_add? hadd) ih

theorem Sorts.checked (h : Sorts accepted arguments a r) (hr : "check" ∉ r.switches) :
    Sorts accepted arguments a.checked r.checked := by
  induction h with
  | nil a => exact .nil _
  | cons hpiece hadd hrest ih =>
      exact .cons hpiece (Arguments.add?_checked hadd fun hc => hr (hrest.switches_subset hc))
        (ih hr)

/-! ## Comparing in place of writing -/

end CommandSchema.Invocation
