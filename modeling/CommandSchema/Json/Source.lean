import CommandSchema.Json.Reading
import CommandSchema.Source

/-!
# JSON as a source

Definitions are read from the tree of a JSON text. What the text breaks off at is malformed; what
nobody asks for only has to be whole.
-/

namespace CommandSchema.Json

namespace Numeral

/-- A number as contents. -/
def content : Numeral → Except Fault Content
  | integer n => .ok (.integer n)
  | floating x => .ok (.floating (Text.floating x))
  | outOfRange => .error .malformed

end Numeral

namespace Reading

/-- A string that has to be a text. -/
def textOf : Option String → Except Fault String
  | some s => .ok s
  | none => .error .malformed

/-- The end of a list or record, which has to be there. -/
def close (isClosed : Bool) : Except Fault Unit :=
  if isClosed then .ok () else .error .malformed

mutual

/-- A part of a text without a shape. -/
def content : Reading → Except Fault Content
  | null => .ok .null
  | bool b => .ok (.bool b)
  | number n => n.content
  | text s => (textOf s).map .text
  | list items isClosed => do
    let cs ← contents items
    close isClosed
    return .list cs
  | record members isClosed => do
    let ms ← memberContents members
    close isClosed
    return .record ms
  | tooDeep _ _ | broken => .error .malformed

/-- The items of a list without shapes. -/
def contents : List Reading → Except Fault (List Content)
  | [] => .ok []
  | r :: rs => do
    let c ← content r
    return c :: (← contents rs)

/-- The members of a record without shapes. -/
def memberContents : List (Option String × Reading) → Except Fault (List (Content × Content))
  | [] => .ok []
  | (key, r) :: ms => do
    let k ← textOf key
    let c ← content r
    return (.text k, c) :: (← memberContents ms)

end

/-- What a part is called where something else was expected. Of a list or record no more than the
start is looked at. -/
def found : Reading → Except Fault Found
  | null => .ok .null
  | bool b => .ok (.bool b)
  | number n => n.content.map Content.found
  | text s => (textOf s).map .text
  | list _ _ | tooDeep true _ => .ok .list
  | record _ _ | tooDeep false _ => .ok .record
  | broken => .error .malformed

/-- The fault of a part that stands where something else was expected. -/
def mismatch {α : Type} (r : Reading) (expected : String) : Except Fault α := do
  throw (.wrongType (← r.found) expected)

/-- The value that goes with a word: the word as a string, or a record with the word as its one key
and null as the value. -/
def choice {α : Type} (choices : List (String × α)) : Reading → Except Fault α
  | text s => do choose choices (← textOf s)
  | record ((key, value) :: rest) isClosed => do
    let a ← choose choices (← textOf key)
    match value with
    | null => if rest.isEmpty && isClosed then return a else throw .malformed
    | value => value.mismatch "unit"
  | _ => .error .malformed

end Reading

instance : Source Reading (Except Fault) where
  text expected
    | .text s => Reading.textOf s
    | r => r.mismatch expected
  truth
    | .bool b => .ok b
    | r => r.mismatch "a boolean"
  optional f
    | .null => .ok none
    | r => (f r).map some
  list f
    | .list items isClosed => do
      let as ← items.mapM f
      Reading.close isClosed
      return as
    | .tooDeep true _ => .error .malformed
    | r => r.mismatch "a sequence"
  choice := Reading.choice
  record expected
    | .record members isClosed =>
      .ok (.named (members.map fun (key, r) => (Reading.textOf key, r)) (Reading.close isClosed))
    | .list items isClosed => .ok (.listed items (Reading.close isClosed))
    | .tooDeep _ _ => .error .malformed
    | r => r.mismatch expected
  content := Reading.content
  skip r := Reading.close r.isWhole
  fail := Except.error

/-- Reads a text of a shape; nothing may follow it. -/
def decode {α : Type} (read : Reading → Except Fault α) (text : String) : Except Fault α := do
  let (r, isAlone) := Json.read text
  let a ← read r
  if isAlone then return a else throw .malformed

end CommandSchema.Json
