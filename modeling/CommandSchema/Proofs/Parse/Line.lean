import CommandSchema.Parse.Scan
import Mathlib.Algebra.Ring.Nat

/-!
# Command lines as items

The grammar of a command line, told without the machine that reads it.  A line
is a list of items, each of which stands for one or two tokens, and possibly a
terminator with tokens that are positional whatever they look like.  What an item
says about a field is the list of the occurrences of the field's forms.
-/

namespace CommandSchema

/-- A form by which a command line names an option. -/
inductive Form
  | short (c : Char)
  | long (name : String)
  deriving DecidableEq, Repr

/-- A form as it stands in a diagnostic. -/
def Form.spelling : Form → String
  | short c => "-" ++ String.singleton c
  | long name => "--" ++ name

/-- Whether a field answers to a form. -/
def Field.answersTo (f : Field) : Form → Bool
  | .short c => f.matchesShort c
  | .long name => f.matchesLong name

/-- Whether options of this kind stand alone. -/
def FieldKind.isSwitch : FieldKind → Bool
  | flag | counter => true
  | _ => false

/-- One use of an option, with the raw value that it is given. -/
structure Occurrence where
  form : Form
  value : Option String
  deriving DecidableEq, Repr

/-- The value of an option: in the option's own token, or in the next one. -/
inductive Supply
  | attached (value : String)
  | separate (value : String)
  deriving DecidableEq, Repr

namespace Supply

/-- The raw value. -/
def value : Supply → String
  | attached v | separate v => v

/-- The tokens of an option that is written as `lead`, with `mark` between the
option and an attached value. -/
def tokens (lead mark : String) : Supply → List String
  | attached v => [lead ++ mark ++ v]
  | separate v => [lead, v]

/-- Whether the value may stand where it does and converts to a type. -/
structure Fits (type : ValueType) (supply : Supply) : Prop where
  separate : ∀ v, supply = separate v → Scan.isSeparateValue v = true
  converts : ∃ v, type.convert supply.value = .ok v

theorem fits_separate {type : ValueType} {v : String} {value : Value}
    (hv : Scan.isSeparateValue v = true) (h : type.convert v = .ok value) :
    (separate v).Fits type := by
  constructor
  · intro w hw
    obtain rfl := separate.inj hw
    exact hv
  · exact ⟨value, h⟩

end Supply

/-- A piece of a command line that makes sense by itself. -/
inductive Item
  /-- A positional token. -/
  | positional (token : String)
  /-- A long form, with a value if the option takes one. -/
  | long (name : String) (supply : Option Supply)
  /-- A cluster of short forms, of which only the last takes a value. -/
  | short (switches : List Char) (last : Option (Char × Supply))
  deriving DecidableEq, Repr

namespace Item

/-- The tokens that an item is written as. -/
def tokens : Item → List String
  | positional token => [token]
  | long name none => ["--" ++ name]
  | long name (some supply) => supply.tokens ("--" ++ name) "="
  | short cs none => ["-" ++ String.ofList cs]
  | short cs (some (c, supply)) => supply.tokens ("-" ++ String.ofList (cs ++ [c])) ""

/-- The positional tokens of an item. -/
def positionals : Item → List String
  | positional token => [token]
  | _ => []

/-- The options that an item uses, from left to right. -/
def occurrences : Item → List Occurrence
  | positional _ => []
  | long name supply => [⟨.long name, supply.map Supply.value⟩]
  | short cs last =>
    cs.map (fun c => ⟨.short c, none⟩) ++
      last.toList.map fun (c, supply) => ⟨.short c, some supply.value⟩

end Item

/-- Whether a character is the short form of an option without a value. -/
def Schema.IsSwitch (s : Schema) (c : Char) : Prop :=
  ∃ f ∈ s.fields, f.short = some c ∧ f.kind.isSwitch = true

/-- The items that a schema allows. -/
inductive Item.Valid (s : Schema) : Item → Prop
  | positional {token : String} (plain : token = "-" ∨ Scan.isSeparateValue token = true) :
      Valid s (.positional token)
  | longSwitch {name : String} {f : Field} (mem : f ∈ s.fields)
      (form : f.long = some name) (kind : f.kind.isSwitch = true) :
      Valid s (.long name none)
  | longValue {name : String} {supply : Supply} {f : Field} {type : ValueType}
      (mem : f ∈ s.fields) (form : f.long = some name) (kind : f.kind = .valued type)
      (fits : supply.Fits type) : Valid s (.long name (some supply))
  | cluster {cs : List Char} (nonempty : cs ≠ []) (switches : ∀ c ∈ cs, s.IsSwitch c) :
      Valid s (.short cs none)
  | clusterValue {cs : List Char} {c : Char} {supply : Supply} {f : Field} {type : ValueType}
      (switches : ∀ c ∈ cs, s.IsSwitch c) (mem : f ∈ s.fields) (form : f.short = some c)
      (kind : f.kind = .valued type) (fits : supply.Fits type)
      (nonempty : supply ≠ .attached "") : Valid s (.short cs (some (c, supply)))

/-- A command line cut into items.  `tail` holds the tokens after the
terminator, if there is one. -/
structure Line where
  items : List Item
  tail : Option (List String)
  deriving DecidableEq, Repr

namespace Line

/-- The tokens of a terminator and of what follows it. -/
def tailTokens : Option (List String) → List String
  | none => []
  | some tokens => "--" :: tokens

/-- All tokens of a line. -/
def tokens (line : Line) : List String :=
  line.items.flatMap Item.tokens ++ tailTokens line.tail

/-- Whether a schema allows every item of a line. -/
def Valid (s : Schema) (line : Line) : Prop :=
  ∀ item ∈ line.items, item.Valid s

/-- The positional tokens of a line. -/
def positionals (line : Line) : List String :=
  line.items.flatMap Item.positionals ++ line.tail.getD []

/-- The options that a line uses, from left to right. -/
def occurrences (line : Line) : List Occurrence :=
  line.items.flatMap Item.occurrences

end Line

namespace Field

/-- The uses of a field among uses of options. -/
def uses (f : Field) (occs : List Occurrence) : List Occurrence :=
  occs.filter fun o => f.answersTo o.form

/-- What uses of options say about a field: a flag is set by any use, a counter
counts its uses up to the largest number, and of several values the last
stands. -/
def slot (f : Field) (occs : List Occurrence) : Option Value :=
  match f.kind with
  | .flag => if f.uses occs = [] then none else some (.bool true)
  | .counter =>
    if f.uses occs = [] then none
    else some (.count (UInt32.ofNat (min (f.uses occs).length (2 ^ 32 - 1))))
  | .valued type => do
    let last ← (f.uses occs).getLast?
    let raw ← last.value
    (type.convert raw).toOption
  | .positional _ | .positionalList => none

end Field

/-- What reading a line leaves behind. -/
def Line.outcome (s : Schema) (line : Line) : Scan.State where
  mode := if line.tail.isSome then .positionals else .options
  positionals := line.positionals
  slots := s.fields.map fun f => f.slot line.occurrences

end CommandSchema
