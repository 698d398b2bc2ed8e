import CommandSchema.Document
import CommandSchema.Text.Decimal
import CommandSchema.Text.Quoted

/-!
# Writing JSON

A document as a JSON text, without any space or spread over lines. Both write the same tokens.
-/

namespace CommandSchema.Json

/-- A character as it stands in a JSON string. -/
def escape (c : Char) : List Char :=
  if c = '"' then ['\\', '"']
  else if c = '\\' then ['\\', '\\']
  else if c = '\x08' then ['\\', 'b']
  else if c = '\x0c' then ['\\', 'f']
  else if c = '\n' then ['\\', 'n']
  else if c = '\r' then ['\\', 'r']
  else if c = '\t' then ['\\', 't']
  else if c.toNat < 0x10 then ['\\', 'u', '0', '0', '0'] ++ Text.hex c.toNat
  else if c.toNat < 0x20 then ['\\', 'u', '0', '0'] ++ Text.hex c.toNat
  else [c]

/-- A JSON string. -/
def string (s : String) : String :=
  String.ofList ('"' :: (s.toList.flatMap escape ++ ['"']))

mutual

/-- A document without any space. -/
def compact : Document → String
  | .bool b => if b then "true" else "false"
  | .int n => Text.decimal n
  | .text s => string s
  | .letter c => string (String.singleton c)
  | .list [] => "[]"
  | .list (d :: ds) => "[" ++ compact d ++ compactItems ds
  | .record [] => "\x7b\x7d"
  | .record ((k, d) :: ms) => "\x7b" ++ string k ++ ":" ++ compact d ++ compactMembers ms

/-- The items after the first, and the end of the list. -/
def compactItems : List Document → String
  | [] => "]"
  | d :: ds => "," ++ compact d ++ compactItems ds

/-- The members after the first, and the end of the record. -/
def compactMembers : List (String × Document) → String
  | [] => "\x7d"
  | (k, d) :: ms => "," ++ string k ++ ":" ++ compact d ++ compactMembers ms

end

/-- The start of a line at a depth. -/
def newLine (depth : Nat) : String :=
  String.ofList ('\n' :: List.replicate (2 * depth) ' ')

mutual

/-- A document with one part on each line, indented by two spaces for each level. -/
def prettyAt (depth : Nat) : Document → String
  | .bool b => if b then "true" else "false"
  | .int n => Text.decimal n
  | .text s => string s
  | .letter c => string (String.singleton c)
  | .list [] => "[]"
  | .list (d :: ds) =>
    "[" ++ newLine (depth + 1) ++ prettyAt (depth + 1) d ++ prettyItems depth ds
  | .record [] => "\x7b\x7d"
  | .record ((k, d) :: ms) =>
    "\x7b" ++ newLine (depth + 1) ++ string k ++ ": " ++ prettyAt (depth + 1) d ++
      prettyMembers depth ms

/-- The items after the first, and the end of the list. -/
def prettyItems (depth : Nat) : List Document → String
  | [] => newLine depth ++ "]"
  | d :: ds => "," ++ newLine (depth + 1) ++ prettyAt (depth + 1) d ++ prettyItems depth ds

/-- The members after the first, and the end of the record. -/
def prettyMembers (depth : Nat) : List (String × Document) → String
  | [] => newLine depth ++ "\x7d"
  | (k, d) :: ms =>
    "," ++ newLine (depth + 1) ++ string k ++ ": " ++ prettyAt (depth + 1) d ++
      prettyMembers depth ms

end

/-- A document spread over lines. -/
def pretty (d : Document) : String :=
  prettyAt 0 d

end CommandSchema.Json
