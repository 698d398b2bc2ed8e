import CommandSchema.Yaml.Cursor

/-!
# Scalars in a YAML text

The three ways to write a scalar: in quotation marks, plain, and as a block. Lines are folded
except in a literal block: one line break counts as a space, and of more the first drops out.
-/

namespace CommandSchema.Yaml

/-- A line break with those after it, folded. -/
def fold (first others : List Char) : List Char :=
  if first = ['\n'] then (if others = [] then [' '] else others) else first ++ others

/-- The number of columns that a text is indented by has to be made of spaces: the first tab may not
stand before `limit`. -/
def isCleanIndent (limit column : Nat) (blanks : List Char) : Bool :=
  let spaces := blanks.takeWhile (· == ' ')
  spaces.length == blanks.length || limit ≤ column + spaces.length

/-- The line breaks at a place, across blanks, and the place of the next character that is neither.
Columns before `limit` may hold no tab. -/
def breaks? (limit : Nat) : (fuel : Nat) → Cursor → Option (List Char × Cursor)
  | 0, _ => none
  | fuel + 1, c =>
    let (blanks, c') := c.span isBlank
    if isCleanIndent limit c.column blanks then
      if c'.rest.head?.any isBreak then do
        let (b, c') := c'.lineBreak
        let (bs, c') ← breaks? limit fuel c'
        return (b ++ bs, c')
      else some ([], c')
    else none

/-- What stands between two words of a scalar. -/
structure Gap where
  /-- What the gap counts as. -/
  text : List Char
  /-- Whether a line ends in it. -/
  hasBreak : Bool
  /-- The place of the next word. -/
  cursor : Cursor

/-- The gap at a place. -/
def gap? (limit : Nat) (c : Cursor) : Option Gap :=
  let (blanks, c) := c.span isBlank
  if c.rest.head?.any isBreak then do
    let (first, c) := c.lineBreak
    let (others, c) ← breaks? limit (c.rest.length + 1) c
    return ⟨fold first others, true, c⟩
  else some ⟨blanks, false, c⟩

/-- The character that is written as a backslash and one character. -/
def escaped? : Char → Option Char
  | '0' => some '\x00'
  | 'a' => some '\x07'
  | 'b' => some '\x08'
  | 't' | '\t' => some '\t'
  | 'n' => some '\n'
  | 'v' => some '\x0b'
  | 'f' => some '\x0c'
  | 'r' => some '\r'
  | 'e' => some '\x1b'
  | ' ' => some ' '
  | '"' => some '"'
  | '/' => some '/'
  | '\\' => some '\\'
  | 'N' => some '\u0085'
  | '_' => some '\u00a0'
  | 'L' => some '\u2028'
  | 'P' => some '\u2029'
  | _ => none

/-- The number of digits of an escape with a number. -/
def escapeWidth? : Char → Option Nat
  | 'x' => some 2
  | 'u' => some 4
  | 'U' => some 8
  | _ => none

/-- The digit that a character is in base sixteen. -/
def hexValue? (c : Char) : Option Nat :=
  if c.isDigit then some (c.toNat - '0'.toNat)
  else if 'a' ≤ c ∧ c ≤ 'f' then some (c.toNat - 'a'.toNat + 10)
  else if 'A' ≤ c ∧ c ≤ 'F' then some (c.toNat - 'A'.toNat + 10)
  else none

/-- The number that digits of base sixteen name. -/
def hexNumber? (ds : List Char) : Option Nat :=
  ds.foldlM (fun n d => (hexValue? d).map (n * 16 + ·)) 0

/-- The character of an escape after its backslash, and the place after it. -/
def escape? (c : Cursor) : Option (Char × Cursor) :=
  match c.rest with
  | [] => none
  | a :: r =>
    match escapeWidth? a with
    | none => (escaped? a).map fun ch => (ch, c.next)
    | some width => do
      let digits := r.take width
      let n ← hexNumber? digits
      if digits.length = width ∧ n.isValidChar then
        return (Char.ofNat n, ⟨r.drop width, c.index + 1 + width, c.line, c.column + 1 + width⟩)
      else none

/-- Characters up to a gap or to the end of a scalar. -/
structure Word where
  text : List Char
  /-- Whether the word ends at a line break that is escaped and drops out. -/
  isContinued : Bool
  cursor : Cursor

/-- A word with one more character in front. -/
def Word.cons (a : Char) (w : Word) : Word :=
  { w with text := a :: w.text }

/-- A word in single quotation marks, in which a mark is written twice. -/
def singleWord : (fuel : Nat) → Cursor → Option Word
  | 0, _ => none
  | fuel + 1, c =>
    match c.rest with
    | '\'' :: '\'' :: _ => (singleWord fuel c.next.next).map (.cons '\'')
    | a :: _ =>
      if isGap a ∨ a = '\'' then some ⟨[], false, c⟩
      else (singleWord fuel c.next).map (.cons a)
    | [] => some ⟨[], false, c⟩

/-- A word in double quotation marks, with escapes. -/
def doubleWord : (fuel : Nat) → Cursor → Option Word
  | 0, _ => none
  | fuel + 1, c =>
    match c.rest with
    | '\\' :: a :: _ =>
      if isBreak a then some ⟨[], true, c.next.nextLine⟩
      else do
        let (ch, c) ← escape? c.next
        let w ← doubleWord fuel c
        return w.cons ch
    | a :: _ =>
      if isGap a ∨ a = '"' then some ⟨[], false, c⟩
      else if a = '\\' then none
      else (doubleWord fuel c.next).map (.cons a)
    | [] => some ⟨[], false, c⟩

/-- A scalar after its opening quotation mark, and the place after its closing one. No mark between
documents may stand in it. -/
def quoted? (mark : Char) : (fuel : Nat) → Cursor → Option (List Char × Cursor)
  | 0, _ => none
  | fuel + 1, c =>
    if c.isAtMark || c.rest.isEmpty then none
    else do
      let size := c.rest.length + 1
      let w ← if mark = '\'' then singleWord size c else doubleWord size c
      if w.cursor.rest.head? = some mark then return (w.text, w.cursor.next)
      else do
        let (joint, c) ←
          if w.isContinued then breaks? 0 (w.cursor.rest.length + 1) w.cursor
          else (gap? 0 w.cursor).map fun g => (g.text, g.cursor)
        let (others, c) ← quoted? mark fuel c
        return (w.text ++ joint ++ others, c)

/-- Whether a character is a bracket or a comma of a flow collection. -/
def isFlowIndicator (c : Char) : Bool :=
  c == ',' || c == '[' || c == ']' || c == '\x7b' || c == '\x7d'

/-- A word of a plain scalar. A colon before a gap ends it; in a flow collection brackets and commas
do, and none of them may follow a colon. -/
def plainWord (isFlow : Bool) : (fuel : Nat) → Cursor → Option (List Char × Cursor)
  | 0, _ => none
  | fuel + 1, c =>
    match c.rest with
    | [] => some ([], c)
    | a :: r =>
      if isGap a then some ([], c)
      else if isFlow && a == ':' && r.head?.any (fun b => isFlowIndicator b || b == '?') then none
      else if (a == ':' && endsHere r) || (isFlow && isFlowIndicator a) then some ([], c)
      else do
        let (w, c) ← plainWord isFlow fuel c.next
        return (a :: w, c)

/-- The rest of a plain scalar after the gap `joint`, whether a line ends behind its last word, and
the place after that gap. Further lines start at column `limit` or later. -/
def plainRest (isFlow : Bool) (limit : Nat) : (fuel : Nat) → (joint : List Char) →
    (hasBreak : Bool) → Cursor → Option (List Char × Bool × Cursor)
  | 0, _, _, _ => none
  | fuel + 1, joint, hasBreak, c =>
    if c.isAtMark || c.rest.head? = some '#' then some ([], hasBreak, c)
    else do
      let (w, c) ← plainWord isFlow (c.rest.length + 1) c
      if w = [] then return ([], hasBreak, c)
      else if endsHere c.rest && !c.rest.isEmpty then do
        let g ← gap? limit c
        if !isFlow && g.cursor.column < limit then return (joint ++ w, g.hasBreak, g.cursor)
        else do
          let (others, hasBreak, c) ← plainRest isFlow limit fuel g.text g.hasBreak g.cursor
          return (joint ++ w ++ others, hasBreak, c)
      else return (joint ++ w, false, c)

/-- A plain scalar, whether a line ends behind it, and the place of what follows. -/
def plain? (isFlow : Bool) (limit : Nat) (c : Cursor) : Option (List Char × Bool × Cursor) :=
  plainRest isFlow limit (c.rest.length + 1) [] false c

/-- What becomes of the line breaks at the end of a block. -/
inductive Ending
  /-- The last break stays. -/
  | clip
  | strip
  | keep
  deriving DecidableEq, Repr

/-- The sign for an ending. -/
def ending? (c : Cursor) : Option Ending :=
  match c.rest with
  | '+' :: _ => some .keep
  | '-' :: _ => some .strip
  | _ => none

/-- The digit for the indentation of a block; zero is none, and may not be written. -/
def indentHint? (c : Cursor) : Option (Nat × Cursor) :=
  match c.rest with
  | a :: _ =>
    if a = '0' then none
    else if a.isDigit then some (a.toNat - '0'.toNat, c.next)
    else some (0, c)
  | [] => some (0, c)

/-- The line of a block's mark, after the mark: the ending, the indentation or zero, and the place
of the first line. -/
def blockHeader? (c : Cursor) : Option (Ending × Nat × Cursor) := do
  let (ending, hint, c) ← match ending? c with
    | some ending => do
      let (hint, c) ← indentHint? c.next
      pure (ending, hint, c)
    | none => do
      let (hint, c) ← indentHint? c
      match (if hint = 0 then none else ending? c) with
      | some ending => pure (ending, hint, c.next)
      | none => pure (Ending.clip, hint, c)
  let c ← c.restOfLine?
  return (ending, hint, c)

/-- The empty lines at a place, the largest indentation among them, and the place of the next text.
Lines are indented by `indent` columns, or by any number if it is zero. -/
def emptyLines? (indent : Nat) : (fuel : Nat) → (widest : Nat) → Cursor →
    Option (List Char × Nat × Cursor)
  | 0, _, _ => none
  | fuel + 1, widest, c =>
    let spaces := (c.rest.takeWhile (· == ' ')).length
    let n := if indent = 0 then spaces else min spaces (indent - c.column)
    let c : Cursor := ⟨c.rest.drop n, c.index + n, c.line, c.column + n⟩
    let widest := max widest c.column
    if (indent = 0 || c.column < indent) && c.rest.head? = some '\t' then none
    else if c.rest.head?.any isBreak then do
      let (b, c) := c.lineBreak
      let (bs, widest, c) ← emptyLines? indent fuel widest c
      return (b ++ bs, widest, c)
    else some ([], widest, c)

/-- The text of a block up to now, with what may still be joined to it. -/
structure BlockText where
  text : List Char
  /-- The break of the last line. -/
  last : List Char
  /-- The empty lines after it. -/
  empty : List Char
  /-- Whether the last line starts with a blank. -/
  isIndented : Bool
  cursor : Cursor

/-- The lines of a block that are left. -/
def blockLines? (isLiteral : Bool) (indent : Nat) : (fuel : Nat) → BlockText → Option BlockText
  | 0, _ => none
  | fuel + 1, b =>
    let c := b.cursor
    if c.column = indent ∧ !c.rest.isEmpty then do
      let isIndented := c.rest.head?.any isBlank
      let joint :=
        if !isLiteral ∧ b.last = ['\n'] ∧ !b.isIndented ∧ !isIndented then
          (if b.empty = [] then [' '] else [])
        else b.last
      let (line, c) := c.span (fun a => !isBreak a)
      let (last, c) := c.lineBreak
      let (empty, _, c) ← emptyLines? indent (c.rest.length + 1) 0 c
      blockLines? isLiteral indent fuel
        ⟨b.text ++ joint ++ b.empty ++ line, last, empty, isIndented, c⟩
    else some b

/-- A block after its mark, and the place after it. It is indented more than `parent` columns. -/
def block? (isLiteral : Bool) (parent : Int) (c : Cursor) : Option (List Char × Cursor) := do
  let (ending, hint, c) ← blockHeader? c
  let given := if hint = 0 then 0 else hint + parent.toNat
  let (empty, widest, c) ← emptyLines? given (c.rest.length + 1) 0 c
  let indent := if given = 0 then max widest (max (parent + 1).toNat 1) else given
  let b ← blockLines? isLiteral indent (c.rest.length + 1) ⟨[], [], empty, false, c⟩
  let tail := match ending with
    | .strip => []
    | .clip => b.last
    | .keep => b.last ++ b.empty
  return (b.text ++ tail, b.cursor)

end CommandSchema.Yaml
