import CommandSchema.Source.Content

/-!
# Sources

Definitions can be read from texts in more than one format. A source is a part of a text in one of
them, together with the ways in which such a part can be read; the shapes of definitions are
described once, by layouts, and read from every source.
-/

namespace CommandSchema

/-- The parts of a record in the order in which they stand in the text. Where the text breaks off,
`close` fails. -/
inductive Parts (σ : Type) (m : Type → Type)
  /-- Members with their keys. -/
  | named (members : List (m String × σ)) (close : m Unit)
  /-- Members without keys, in the order of the layout. -/
  | listed (items : List σ) (close : m Unit)

/-- The ways to read a part `σ` of a text, with the effect `m`. -/
class Source (σ : Type) (m : outParam (Type → Type)) where
  /-- A text, where `expected` should stand. -/
  text : (expected : String) → σ → m String
  /-- A truth value. -/
  truth : σ → m Bool
  /-- A part that may be null instead. -/
  optional : {α : Type} → (σ → m α) → σ → m (Option α)
  /-- The items of a list. -/
  list : {α : Type} → (σ → m α) → σ → m (List α)
  /-- The value that goes with one of some words. -/
  choice : {α : Type} → List (String × α) → σ → m α
  /-- The parts of a record, where `expected` should stand. -/
  record : (expected : String) → σ → m (Parts σ m)
  /-- Whatever stands there. -/
  content : σ → m Content
  /-- Passes over a part that nobody asks for. -/
  skip : σ → m Unit
  /-- Gives up. -/
  fail : {α : Type} → Fault → m α

namespace Source

variable {σ : Type} {m : Type → Type} [Monad m] [Source σ m]

/-- The result of a rule that needs no source. -/
def check (σ : Type) {m : Type → Type} [Monad m] [Source σ m] {α : Type} :
    Except Fault α → m α
  | .ok a => pure a
  | .error e => fail σ e

/-- A text of exactly one character. -/
def letter (s : σ) : m Char := do
  let t ← text "a character" s
  match t.toList with
  | [c] => pure c
  | _ => fail σ (.wrongValue (.text t) "a character")

/-- A value, whose sort is told by its form. -/
def value (s : σ) : m Value := do
  match Value.ofContent? (← content s) with
  | some v => pure v
  | none => fail σ .noAlternative

end Source

/-- One member that a record may have, and how it adds to the draft of the result. -/
structure Slot (σ : Type) (m : Type → Type) (δ : Type) where
  key : String
  /-- Whether the draft already has the member. -/
  isSet : δ → Bool
  read : σ → δ → m δ
  /-- Whether a record written as a list may end before this member. -/
  isSpare : Bool

/-- What becomes of members that a layout does not name. -/
inductive Others (δ : Type)
  | ignored
  | refused
  /-- They are added to the draft; then the record cannot be written as a list. -/
  | kept (add : String → Content → δ → δ)

/-- The shape of a record: its name, its members, and how a result comes from a draft. -/
structure Layout (σ : Type) (m : Type → Type) (δ α : Type) where
  name : String
  start : δ
  slots : List (Slot σ m δ)
  others : Others δ
  finish : δ → Except Fault α

namespace Layout

variable {σ : Type} {m : Type → Type} {δ α : Type} [Monad m] [Source σ m]

/-- What a layout expects. -/
def expectation (l : Layout σ m δ α) : String :=
  "struct " ++ l.name

/-- What a layout expects of a list. -/
def lengthExpectation (l : Layout σ m δ α) : String :=
  l.expectation ++ " with " ++ Text.decimal l.slots.length ++
    (if l.slots.length = 1 then " element" else " elements")

/-- Adds a member with a key to a draft. -/
def add (l : Layout σ m δ α) (draft : δ) (member : m String × σ) : m δ := do
  let key ← member.1
  match l.slots.find? fun slot => slot.key == key with
  | some slot =>
    if slot.isSet draft then Source.fail σ (.duplicateMember key) else slot.read member.2 draft
  | none =>
    match l.others with
    | .ignored => do
      Source.skip member.2
      pure draft
    | .refused => Source.fail σ (.unknownMember key (l.slots.map Slot.key))
    | .kept add => do
      let content ← Source.content member.2
      pure (add key content draft)

/-- Gives the items of a list to the slots; `length` items have been given away. -/
def deal (l : Layout σ m δ α) (close : m Unit) :
    (length : Nat) → List (Slot σ m δ) → List σ → δ → m δ
  | _, [], [], draft => do
    close
    pure draft
  | _, [], _ :: _, _ => Source.fail σ .malformed
  | length, slot :: slots, [], draft => do
    close
    if slot.isSpare then l.deal close length slots [] draft
    else Source.fail σ (.wrongLength length l.lengthExpectation)
  | length, slot :: slots, item :: items, draft => do
    l.deal close (length + 1) slots items (← slot.read item draft)

/-- Reads a record. -/
def read (l : Layout σ m δ α) (s : σ) : m α := do
  match ← Source.record l.expectation s with
  | .named members close => do
    let draft ← members.foldlM l.add l.start
    close
    Source.check σ (l.finish draft)
  | .listed items close =>
    match l.others with
    | .kept _ => Source.fail σ (.wrongType .list l.expectation)
    | _ => do
      let draft ← l.deal close 0 l.slots items l.start
      Source.check σ (l.finish draft)

end Layout

end CommandSchema
