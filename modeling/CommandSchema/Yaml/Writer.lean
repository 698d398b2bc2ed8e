import CommandSchema.Document
import CommandSchema.Text.Decimal
import CommandSchema.Text.Quoted
import CommandSchema.Yaml.Character
import CommandSchema.Yaml.Scalar

/-!
# Writing YAML

A document in block style. A text is written plain where it can be read back as the same text, in
single quotation marks where a plain form would mean something else, as a literal block if it has
lines, and in double quotation marks with escapes if nothing else can hold it. Lines are not folded.
-/

namespace CommandSchema.Yaml

/-- How a text is written. -/
inductive Style
  | plain
  | single
  | double
  | literal
  deriving DecidableEq, Repr

/-- Whether a character may stand in a scalar without an escape. -/
def isPrintable (c : Char) : Bool :=
  let n := c.toNat
  n == 0x0A || (0x20 ≤ n && n ≤ 0x7E) || (0xA0 ≤ n && n != 0xFEFF && n != 0xFFFE && n != 0xFFFF)

/-- Whether two characters with the given properties stand next to each other. -/
def hasPair (p q : Char → Bool) : List Char → Bool
  | a :: b :: cs => (p a && q b) || hasPair p q (b :: cs)
  | _ => false

/-- Whether the start of a text would be read as an indicator. -/
def startsWithIndicator : List Char → Bool
  | [] => false
  | '-' :: '-' :: '-' :: _ => true
  | '.' :: '.' :: '.' :: _ => true
  | c :: cs =>
    "#,[]\x7b\x7d&*!|>'\"%@`".toList.contains c || ("?:-".toList.contains c && endsHere cs)

/-- Whether a colon before a gap or a number sign after a gap stands in a text. -/
def holdsIndicator : List Char → Bool
  | [] => false
  | c :: cs =>
    (c == ':' && endsHere cs) || (isGap c && cs.head? == some '#') || holdsIndicator cs

/-- Whether a text can be written plain. -/
def allowsPlain (cs : List Char) : Bool :=
  !(startsWithIndicator cs || holdsIndicator cs || cs.any (fun c => isBreak c || !isPrintable c) ||
    cs.head? == some ' ' || cs.getLast? == some ' ')

/-- Whether a text can be written in single quotation marks. -/
def allowsSingle (cs : List Char) : Bool :=
  !(cs.any (fun c => !isPrintable c) || hasPair (· == ' ') isBreak cs || hasPair isBreak (· == ' ') cs)

/-- Whether a text can be written as a literal block. -/
def allowsLiteral (cs : List Char) : Bool :=
  !(cs.any (fun c => !isPrintable c) || hasPair (· == ' ') isBreak cs || cs.getLast? == some ' ')

/-- The style that a text asks for. -/
def requestedStyle (s : String) : Style :=
  if s.toList.contains '\n' then .literal
  else if meaning s = .text && !hasLeadingZero s then .plain
  else .single

/-- The first style, from the given one on, that can hold a text. -/
def allowedStyle (cs : List Char) : Style → Style
  | .plain => if allowsPlain cs then .plain else if allowsSingle cs then .single else .double
  | .single => if allowsSingle cs then .single else .double
  | .literal => if allowsLiteral cs then .literal else .double
  | .double => .double

/-- Blanks in front of a line. -/
def padding (indent : Nat) : List Char :=
  List.replicate indent ' '

/-- A text in single quotation marks, in which a mark is written twice and a line that goes on is
indented. -/
def singleQuoted (indent : Nat) (cs : List Char) : List Char :=
  let rec go (afterBreak : Bool) : List Char → List Char
    | [] => if afterBreak then padding indent else []
    | c :: cs =>
      if isBreak c then c :: go true cs
      else
        (if afterBreak then padding indent else []) ++ (if c = '\'' then ['\'', '\''] else [c]) ++
          go false cs
  '\'' :: (go false cs ++ ['\''])

/-- A number in base sixteen with capital letters, of a fixed width. -/
def capitalHex (width n : Nat) : List Char :=
  ((Text.hex n).map Char.toUpper).leftpad width '0'

/-- A character between double quotation marks. -/
def escape (c : Char) : List Char :=
  if c = '\x00' then ['\\', '0']
  else if c = '\x07' then ['\\', 'a']
  else if c = '\x08' then ['\\', 'b']
  else if c = '\t' then ['\\', 't']
  else if c = '\n' then ['\\', 'n']
  else if c = '\x0b' then ['\\', 'v']
  else if c = '\x0c' then ['\\', 'f']
  else if c = '\r' then ['\\', 'r']
  else if c = '\x1b' then ['\\', 'e']
  else if c = '"' then ['\\', '"']
  else if c = '\\' then ['\\', '\\']
  else if c = '\u0085' then ['\\', 'N']
  else if c = '\u2028' then ['\\', 'L']
  else if c = '\u2029' then ['\\', 'P']
  else if isPrintable c then [c]
  else if c.toNat ≤ 0xFF then ['\\', 'x'] ++ capitalHex 2 c.toNat
  else ['\\', 'u'] ++ capitalHex 4 c.toNat

/-- A text in double quotation marks. -/
def doubleQuoted (cs : List Char) : List Char :=
  '"' :: (cs.flatMap escape ++ ['"'])

/-- The marks after the bar of a literal block: the indentation, where it cannot be seen, and what
becomes of the last line breaks. -/
def literalHints (cs : List Char) : List Char :=
  let indentation := if cs.head?.any fun c => c == ' ' || isBreak c then ['2'] else []
  let ending := match cs.reverse with
    | [] => ['-']
    | [c] => if isBreak c then ['+'] else ['-']
    | c :: d :: _ => if !isBreak c then ['-'] else if isBreak d then ['+'] else []
  indentation ++ ending

/-- The lines of a literal block; empty lines are not indented. -/
def literalLines (indent : Nat) (afterBreak : Bool) : List Char → List Char
  | [] => if afterBreak then [] else ['\n']
  | c :: cs =>
    if isBreak c then c :: literalLines indent true cs
    else (if afterBreak then padding indent else []) ++ c :: literalLines indent false cs

/-- A scalar in a style, up to the end of its last line. -/
def scalarLines (indent : Nat) (cs : List Char) : Style → List Char
  | .plain => cs ++ ['\n']
  | .single => singleQuoted indent cs ++ ['\n']
  | .double => doubleQuoted cs ++ ['\n']
  | .literal => '|' :: (literalHints cs ++ '\n' :: literalLines indent true cs)

/-- A key on its line. -/
def keyText (s : String) : List Char :=
  let cs := s.toList
  match allowedStyle cs (requestedStyle s) with
  | .plain => cs
  | .single => singleQuoted 0 cs
  | _ => doubleQuoted cs

/-- Whether a key may stand before its colon without a mark: it is at most 128 bytes long. -/
def isSimpleKey (s : String) : Bool :=
  s.utf8ByteSize ≤ 128

/-- Whether a document takes lines of its own. -/
def isBlock : Document → Bool
  | .list (_ :: _) | .record (_ :: _) => true
  | _ => false

/-- A key with its colon, or with a mark and its colon on a line of its own. -/
def keyLines (indent : Nat) (key : String) : List Char :=
  if isSimpleKey key then keyText key ++ [':']
  else ['?', ' '] ++ keyText key ++ '\n' :: padding indent ++ [':']

/-- What stands between the colon of a key and its value. -/
def valueGap (indent : Nat) (key : String) : Document → List Char
  | .list (_ :: _) => if isSimpleKey key then '\n' :: padding indent else [' ']
  | .record (_ :: _) => if isSimpleKey key then '\n' :: padding (indent + 2) else [' ']
  | _ => [' ']

/-- The indentation of a value: lists under a key are not indented. -/
def valueIndent (indent : Nat) (key : String) : Document → Nat
  | .list (_ :: _) => if isSimpleKey key then indent else indent + 2
  | .record (_ :: _) => indent + 2
  | _ => indent

/-- The indentation of an item of a list: lists and records start after the dash. -/
def itemIndent (indent : Nat) (d : Document) : Nat :=
  if isBlock d then indent + 2 else indent

mutual

/-- A document that starts at the current place; further lines are indented. -/
def block (indent : Nat) : Document → List Char
  | .bool b => (if b then "true\n" else "false\n").toList
  | .int n => (Text.decimal n).toList ++ ['\n']
  | .text s => scalarLines (indent + 2) s.toList (allowedStyle s.toList (requestedStyle s))
  | .letter c => scalarLines (indent + 2) [c] (allowedStyle [c] .single)
  | .list [] => "[]\n".toList
  | .list (d :: ds) => '-' :: ' ' :: block (itemIndent indent d) d ++ blockItems indent ds
  | .record [] => "\x7b\x7d\n".toList
  | .record ((k, d) :: ms) =>
    keyLines indent k ++ valueGap indent k d ++ block (valueIndent indent k d) d ++
      blockMembers indent ms

/-- The items of a list after the first. -/
def blockItems (indent : Nat) : List Document → List Char
  | [] => []
  | d :: ds =>
    padding indent ++ '-' :: ' ' :: block (itemIndent indent d) d ++ blockItems indent ds

/-- The members of a record after the first. -/
def blockMembers (indent : Nat) : List (String × Document) → List Char
  | [] => []
  | (k, d) :: ms =>
    padding indent ++ keyLines indent k ++ valueGap indent k d ++
      block (valueIndent indent k d) d ++ blockMembers indent ms

end

/-- A document as a YAML text. -/
def write (d : Document) : String :=
  String.ofList (block 0 d)

end CommandSchema.Yaml
