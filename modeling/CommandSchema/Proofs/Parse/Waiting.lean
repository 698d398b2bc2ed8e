import CommandSchema.Proofs.Parse.Stuck

/-!
# Options that wait for a value

An option whose value is to stand in the next token is an item that lacks its second
half.  A value completes the item if it converts.  Any other continuation leaves the tokens
stuck at the option, and no other tokens that are stuck depend on what follows them.
-/

namespace CommandSchema

open Scan

/-- An option in the last token read, which has no value yet. -/
inductive OpenOption
  | long (name : String)
  /-- The last option of a cluster, behind switches. -/
  | short (switches : List Char) (c : Char)
  deriving DecidableEq, Repr

namespace OpenOption

/-- The token that an option ends. -/
def token : OpenOption → String
  | long name => "--" ++ name
  | short cs c => "-" ++ String.ofList (cs ++ [c])

/-- The form of an option. -/
def form : OpenOption → Form
  | long name => .long name
  | short _ c => .short c

/-- The item that an option and a value in the next token are. -/
def completed (v : String) : OpenOption → Item
  | long name => .long name (some (.separate v))
  | short cs c => .short cs (some (c, .separate v))

/-- The open options that a schema allows, by the type of their value. -/
inductive Valid (s : Schema) (type : ValueType) : OpenOption → Prop
  | long {name : String} {f : Field} (mem : f ∈ s.fields) (form : f.long = some name)
      (kind : f.kind = .valued type) : Valid s type (.long name)
  | short {cs : List Char} {c : Char} {f : Field} (switches : ∀ c ∈ cs, s.IsSwitch c)
      (mem : f ∈ s.fields) (form : f.short = some c) (kind : f.kind = .valued type) :
      Valid s type (.short cs c)

theorem tokens_completed (o : OpenOption) (v : String) : (o.completed v).tokens = [o.token, v] := by
  cases o <;> rfl

theorem positionals_completed (o : OpenOption) (v : String) : (o.completed v).positionals = [] := by
  cases o <;> rfl

section Valid

variable {s : Schema} {type : ValueType} {o : OpenOption} {v : String}

/-- A value that converts completes an option. -/
theorem Valid.completed {value : Value} (ho : o.Valid s type) (hv : isSeparateValue v = true)
    (h : type.convert v = .ok value) : (o.completed v).Valid s := by
  have hfits := Supply.fits_separate hv h
  cases ho with
  | long mem form kind => exact .longValue mem form kind hfits
  | short switches mem form kind =>
      exact .clusterValue switches mem form kind hfits (by simp)

/-- A value that does not convert leaves the option stuck. -/
theorem Valid.stuck_invalid {reason : Text.IntegerFault} (ho : o.Valid s type)
    (hv : isSeparateValue v = true) (h : type.convert v = .error reason) (more : List String) :
    Stuck s (o.token :: v :: more) (.invalidValue o.form.spelling v reason) := by
  have hseparate : ∀ w, Supply.separate v = .separate w → isSeparateValue w = true := by
    intro w hw
    obtain rfl := Supply.separate.inj hw
    exact hv
  cases ho with
  | long mem form kind => exact .longInvalid mem form kind hseparate h
  | short switches mem form kind =>
      exact .shortInvalid switches mem form kind hseparate (by simp) h

theorem Valid.stuck_missing (ho : o.Valid s type) {more : List String} (h : LacksValue more) :
    Stuck s (o.token :: more) (.missingValue o.form.spelling) := by
  cases ho with
  | long mem form kind => exact .longMissing mem form kind h
  | short switches mem form kind => exact .shortMissing switches mem form kind h

end Valid

end OpenOption

theorem LacksValue.append {tokens : List String} (h : LacksValue tokens) (hne : tokens ≠ [])
    (more : List String) : LacksValue (tokens ++ more) := by
  obtain ⟨token, rest, rfl⟩ := List.exists_cons_of_ne_nil hne
  intro first hfirst
  exact h first (by simpa using hfirst)

/-- Tokens that are stuck stay so whatever follows them, unless they are an option that has
no value yet. -/
theorem Stuck.append_or_open {s : Schema} {tokens : List String} {e : ParseError}
    (h : Stuck s tokens e) :
    (∀ more, Stuck s (tokens ++ more) e) ∨
      ∃ (o : OpenOption) (type : ValueType), o.Valid s type ∧ tokens = [o.token] ∧
        e = .missingValue o.form.spelling := by
  cases h with
  | unknownLong proper equals unknown => exact Or.inl fun _ => .unknownLong proper equals unknown
  | unexpectedValue mem form kind => exact Or.inl fun _ => .unexpectedValue mem form kind
  | @longMissing name rest f type mem form kind lacks =>
      by_cases hrest : rest = []
      · subst hrest
        exact Or.inr ⟨.long name, type, .long mem form kind, rfl, rfl⟩
      · exact Or.inl fun more => .longMissing mem form kind (lacks.append hrest more)
  | longInvalid mem form kind separate fault =>
      refine Or.inl fun more => ?_
      rw [List.append_assoc]
      exact .longInvalid mem form kind separate fault
  | unknownShort proper switches unknown =>
      exact Or.inl fun _ => .unknownShort proper switches unknown
  | @shortMissing cs c rest f type switches mem form kind lacks =>
      by_cases hrest : rest = []
      · subst hrest
        exact Or.inr ⟨.short cs c, type, .short switches mem form kind, rfl, rfl⟩
      · exact Or.inl fun more => .shortMissing switches mem form kind (lacks.append hrest more)
  | shortInvalid switches mem form kind separate nonempty fault =>
      refine Or.inl fun more => ?_
      rw [List.append_assoc]
      exact .shortInvalid switches mem form kind separate nonempty fault

/-- Tokens that are stuck stay so if no value follows them. -/
theorem Stuck.append {s : Schema} {tokens more : List String} {e : ParseError}
    (h : Stuck s tokens e) (hmore : LacksValue more) : Stuck s (tokens ++ more) e := by
  rcases h.append_or_open with hall | ⟨o, type, ho, rfl, rfl⟩
  · exact hall more
  · exact ho.stuck_missing hmore

end CommandSchema
