import CommandSchema.Source.Fault
import CommandSchema.Value

/-!
# Contents without a shape

What a part of a text holds when nothing is expected of it. A value is read this way: its sort is
told by the form alone.
-/

namespace CommandSchema

/-- A part of a text as it stands there. -/
inductive Content
  | null
  | bool (b : Bool)
  | integer (n : Int)
  | floating (numeral : String)
  | text (s : String)
  | list (items : List Content)
  | record (members : List (Content × Content))

namespace Content

/-- What a part is called where something else was expected. -/
def found : Content → Found
  | null => .null
  | bool b => .bool b
  | integer n => .integer n
  | floating numeral => .floating numeral
  | text s => .text s
  | list _ => .list
  | record _ => .record

/-- The text that a part is, if it is one. -/
def text? : Content → Option String
  | text s => some s
  | _ => none

/-- Whether a part says no more than that it is there. -/
def isUnit : Content → Bool
  | null | record [] => true
  | _ => false

/-- The value that goes with a part: a word, or a record whose one key is the word and whose value
says nothing. -/
def choice {α : Type} (choices : List (String × α)) : Content → Except Fault α
  | text s => choose choices s
  | record [(key, value)] =>
    match key with
    | text s => do
      let a ← choose choices s
      if value.isUnit then return a else throw (.wrongType value.found "unit")
    | key => .error (.wrongType key.found "variant identifier")
  | record _ => .error (.wrongValue .record "map with a single key")
  | c => .error (.wrongType c.found "string or map")

end Content

namespace Value

/-- The value that a part holds. An integer has to fit into 64 bits, and a list has to hold texts.
No part holds a count. -/
def ofContent? : Content → Option Value
  | .bool b => some (.bool b)
  | .integer n =>
    if Int64.minValue.toInt ≤ n ∧ n ≤ Int64.maxValue.toInt then some (.int (Int64.ofInt n))
    else none
  | .text s => some (.str s)
  | .list items => (items.mapM Content.text?).map .list
  | _ => none

end Value

end CommandSchema
