import CommandSchema.Yaml.Character

/-!
# Places in a YAML text

A place is what is left of the text, with the position that decides about indentation and about how
long a key may be.
-/

namespace CommandSchema.Yaml

/-- A place in a text. -/
structure Cursor where
  rest : List Char
  /-- The number of bytes before the place. -/
  index : Nat
  line : Nat
  column : Nat
  deriving DecidableEq, Repr

namespace Cursor

/-- The start of a text. -/
def start (cs : List Char) : Cursor :=
  ⟨cs, 0, 0, 0⟩

/-- The number of bytes of characters. -/
def size (cs : List Char) : Nat :=
  cs.foldr (fun c n => c.utf8Size + n) 0

/-- The place after the next character, which does not end a line. -/
def next (c : Cursor) : Cursor :=
  match c.rest with
  | [] => c
  | a :: r => ⟨r, c.index + a.utf8Size, c.line, c.column + 1⟩

/-- The characters up to the first one without a property, and the place of that one. No line may
end in between. -/
def span (p : Char → Bool) (c : Cursor) : List Char × Cursor :=
  let taken := c.rest.takeWhile p
  (taken, ⟨c.rest.dropWhile p, c.index + size taken, c.line, c.column + taken.length⟩)

/-- The place of the first character without a property. -/
def skip (p : Char → Bool) (c : Cursor) : Cursor :=
  (c.span p).2

/-- The line break at a place, as it counts in a scalar, and the place after it. The breaks of
plain text files all count as a line feed. -/
def lineBreak (c : Cursor) : List Char × Cursor :=
  match c.rest with
  | '\r' :: '\n' :: r => (['\n'], ⟨r, c.index + 2, c.line + 1, 0⟩)
  | a :: r =>
    if a = '\u2028' ∨ a = '\u2029' then ([a], ⟨r, c.index + a.utf8Size, c.line + 1, 0⟩)
    else if isBreak a then (['\n'], ⟨r, c.index + a.utf8Size, c.line + 1, 0⟩)
    else ([], c)
  | [] => ([], c)

/-- The start of the next line, at a line break. -/
def nextLine (c : Cursor) : Cursor :=
  c.lineBreak.2

/-- The end of a line after blanks and a comment, past the line break. -/
def restOfLine? (c : Cursor) : Option Cursor :=
  let c := c.skip isBlank
  let c := if c.rest.head? = some '#' then c.skip (fun a => !isBreak a) else c
  if c.rest.isEmpty || c.rest.head?.any isBreak then some c.nextLine else none

/-- Whether a text is one of the marks between documents. -/
def isMark : List Char → Bool
  | '-' :: '-' :: '-' :: r => endsHere r
  | '.' :: '.' :: '.' :: r => endsHere r
  | _ => false

/-- Whether a mark between documents stands at a place. -/
def isAtMark (c : Cursor) : Bool :=
  c.column == 0 && isMark c.rest

end Cursor

end CommandSchema.Yaml
