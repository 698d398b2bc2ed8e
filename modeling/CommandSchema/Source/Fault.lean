import CommandSchema.Text.Decimal
import CommandSchema.Text.Quoted

/-!
# Faults of a definition text

What is wrong with a text that is read as a value of some shape. A text that breaks the rules of its
format is malformed, and nothing more is said about it; a well-formed text with the wrong contents
is told what was found and what was expected.
-/

namespace CommandSchema

/-- What stands in a text where something else was expected. -/
inductive Found
  | null
  | bool (b : Bool)
  | integer (n : Int)
  /-- A number with a fraction or exponent, or out of range for an integer, in its shortest form. -/
  | floating (numeral : String)
  | text (s : String)
  | list
  | record
  deriving DecidableEq, Repr

namespace Found

/-- The wording of what was found. -/
def wording : Found → String
  | null => "null"
  | bool b => "boolean `" ++ (if b then "true" else "false") ++ "`"
  | integer n => "integer `" ++ Text.decimal n ++ "`"
  | floating numeral => "floating point `" ++ numeral ++ "`"
  | text s => "string " ++ Text.quote s
  | list => "sequence"
  | record => "map"

end Found

/-- Why a text cannot be read as a value of some shape. -/
inductive Fault
  /-- The text breaks the rules of its format. -/
  | malformed
  /-- A record lacks a member that it needs. -/
  | missingMember (name : String)
  /-- A record has a member that its shape does not know. -/
  | unknownMember (name : String) (known : List String)
  /-- A record has a member twice. -/
  | duplicateMember (name : String)
  /-- A word is none of those that can be chosen from. -/
  | unknownChoice (word : String) (choices : List String)
  /-- Something of another sort stands where `expected` should. -/
  | wrongType (found : Found) (expected : String)
  /-- Something of the right sort, but not a possible value. -/
  | wrongValue (found : Found) (expected : String)
  /-- A record that is written as a list has too few items. -/
  | wrongLength (length : Nat) (expected : String)
  /-- A value is of none of the sorts that it may have. -/
  | noAlternative
  deriving DecidableEq, Repr

namespace Fault

/-- Words in backticks, separated by commas. -/
def listing (words : List String) : String :=
  ", ".intercalate (words.map fun w => "`" ++ w ++ "`")

/-- The wording of what could have been chosen. -/
def expectation (choices : List String) : String :=
  match choices with
  | [a] => "expected `" ++ a ++ "`"
  | [a, b] => "expected `" ++ a ++ "` or `" ++ b ++ "`"
  | _ => "expected one of " ++ listing choices

/-- The wording of a fault; a malformed text has none. -/
def message? : Fault → Option String
  | malformed => none
  | missingMember name => some ("missing field `" ++ name ++ "`")
  | unknownMember name known => some ("unknown field `" ++ name ++ "`, " ++ expectation known)
  | duplicateMember name => some ("duplicate field `" ++ name ++ "`")
  | unknownChoice word choices =>
    some ("unknown variant `" ++ word ++ "`, " ++ expectation choices)
  | wrongType found expected =>
    some ("invalid type: " ++ found.wording ++ ", expected " ++ expected)
  | wrongValue found expected =>
    some ("invalid value: " ++ found.wording ++ ", expected " ++ expected)
  | wrongLength length expected =>
    some ("invalid length " ++ Text.decimal length ++ ", expected " ++ expected)
  | noAlternative => some "data did not match any variant of untagged enum Value"

end Fault

/-- The value that goes with a word. -/
def choose {α : Type} (choices : List (String × α)) (word : String) : Except Fault α :=
  match choices.find? fun c => c.1 == word with
  | some (_, a) => .ok a
  | none => .error (.unknownChoice word (choices.map Prod.fst))

end CommandSchema
