import CommandSchema.Text.Visible

/-!
# Quoted texts

A text between quotation marks in which every character that has no glyph of its own, the mark and
the backslash are written as escapes. The form has no blanks other than spaces and no line breaks,
so a quoted text always stays on its line.
-/

namespace CommandSchema.Text

/-- The digits of a number in base sixteen, small letters, no padding. -/
def hex (n : Nat) : List Char :=
  Nat.toDigits 16 n

/-- A character as it stands in a text quoted with `mark`. -/
def escape (mark c : Char) : List Char :=
  if c = '\x00' then ['\\', '0']
  else if c = '\t' then ['\\', 't']
  else if c = '\r' then ['\\', 'r']
  else if c = '\n' then ['\\', 'n']
  else if c = mark ∨ c = '\\' then ['\\', c]
  else if isVisible c then [c]
  else ['\\', 'u', '\x7b'] ++ hex c.toNat ++ ['\x7d']

/-- A text between double quotation marks. -/
def quote (s : String) : String :=
  String.ofList ('"' :: (s.toList.flatMap (escape '"') ++ ['"']))

/-- A character between single quotation marks. -/
def quoteChar (c : Char) : String :=
  String.ofList ('\'' :: (escape '\'' c ++ ['\'']))

end CommandSchema.Text
