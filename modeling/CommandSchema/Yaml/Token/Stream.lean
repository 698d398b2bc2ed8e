import CommandSchema.Yaml.Token.Tag

/-!
# Cutting a YAML text into tokens

A machine walks through the text. It keeps the columns of the open block collections, and for each
open flow collection the place where a key may have started; when a colon shows that it was one, the
marks for the key are put in there. A key at the column of its mapping has to turn out to be one.
-/

namespace CommandSchema.Yaml

/-- A place where a key may have started. -/
structure PossibleKey where
  /-- Whether only a key can stand there. -/
  isRequired : Bool
  /-- The number of tokens before it. -/
  position : Nat
  index : Nat
  line : Nat
  column : Nat
  deriving DecidableEq, Repr

/-- The state of the machine. -/
structure Scanner where
  cursor : Cursor
  tokens : Array Token
  /-- The column of the innermost block collection, `-1` if there is none. -/
  indent : Int
  /-- The columns of the block collections around it. -/
  outerIndents : List Int
  /-- The possible key of the innermost flow collection, or outside of all. -/
  key : Option PossibleKey
  /-- The possible keys around it, one for each open flow collection. -/
  outerKeys : List (Option PossibleKey)
  /-- Whether a key may start here without a mark. -/
  allowsKey : Bool

namespace Scanner

/-- The state at the start of a text. -/
def start (cs : List Char) : Scanner where
  cursor := .start cs
  tokens := #[]
  indent := -1
  outerIndents := []
  key := none
  outerKeys := []
  allowsKey := true

/-- Whether the machine is inside a flow collection. -/
def isInFlow (s : Scanner) : Bool :=
  !s.outerKeys.isEmpty

/-- Adds a token. -/
def push (s : Scanner) (t : Token) : Scanner :=
  { s with tokens := s.tokens.push t }

/-- Puts tokens in at a position. -/
def insert (s : Scanner) (position : Nat) (ts : List Token) : Scanner :=
  { s with
    tokens := s.tokens.extract 0 position ++ ts.toArray ++ s.tokens.extract position s.tokens.size }

/-- Moves on to a place. -/
def moveTo (s : Scanner) (c : Cursor) : Scanner :=
  { s with cursor := c }

/-- Closes block collections whose column is greater than `column`. -/
def closeBlocks (column : Int) : (indents : List Int) → Scanner → Scanner
  | [], s => s
  | outer :: indents, s =>
    if column < s.indent then
      closeBlocks column indents { s.push .blockEnd with indent := outer, outerIndents := indents }
    else s

/-- Closes block collections at a smaller column, outside of flow collections. -/
def dedent (s : Scanner) (column : Int) : Scanner :=
  if s.isInFlow then s else closeBlocks column s.outerIndents s

/-- Opens a block collection if the column is greater than that of the innermost one. -/
def opensAt (s : Scanner) (column : Nat) : Bool :=
  !s.isInFlow && s.indent < column

/-- The state inside a new block collection. -/
def enter (s : Scanner) (column : Nat) : Scanner :=
  { s with indent := column, outerIndents := s.indent :: s.outerIndents }

/-- Gives up a possible key, unless only a key can stand there. -/
def dropKey? (s : Scanner) : Option Scanner :=
  match s.key with
  | some k => if k.isRequired then none else some { s with key := none }
  | none => some s

/-- Notes that a key may start here. -/
def noteKey? (s : Scanner) : Option Scanner :=
  if s.allowsKey then do
    let s ← s.dropKey?
    let c := s.cursor
    let isRequired := !s.isInFlow && s.indent == (c.column : Int)
    return { s with key := some ⟨isRequired, s.tokens.size, c.index, c.line, c.column⟩ }
  else some s

/-- Adds a token with its text behind it. -/
def accept (s : Scanner) (t : Token) (width : Nat) (allowsKey : Bool) : Scanner :=
  let c := s.cursor
  { s.push t with
    cursor := ⟨c.rest.drop width, c.index + width, c.line, c.column + width⟩, allowsKey := allowsKey }

/-- Adds a token that can start a key. -/
def acceptNode (s : Scanner) (t : Token) (c : Cursor) (allowsKey : Bool) : Scanner :=
  { s.push t with cursor := c, allowsKey := allowsKey }

/-- The end of all block collections, in front of something between documents. -/
def leaveBlocks? (s : Scanner) : Option Scanner :=
  (s.dedent (-1)).dropKey?.map fun s => { s with allowsKey := false }

/-- A dash before an item. -/
def blockEntry? (s : Scanner) : Option Scanner := do
  let s ←
    if s.isInFlow then pure s
    else if !s.allowsKey then none
    else
      let column := s.cursor.column
      pure (if s.opensAt column then (s.push .blockSequenceStart).enter column else s)
  let s ← s.dropKey?
  return s.accept .blockEntry 1 true

/-- A question mark before a key. -/
def markedKey? (s : Scanner) : Option Scanner := do
  let s ←
    if s.isInFlow then pure s
    else if !s.allowsKey then none
    else
      let column := s.cursor.column
      pure (if s.opensAt column then (s.push .blockMappingStart).enter column else s)
  let s ← s.dropKey?
  return s.accept .key 1 (!s.isInFlow)

/-- Whether a possible key can still be one: it is on the line, and not too far away. -/
def PossibleKey.reaches (k : PossibleKey) (c : Cursor) : Bool :=
  k.line == c.line && c.index ≤ k.index + 1024

/-- A colon. If a key has started before it, the marks for the key are put in there; else it belongs
to a marked key, or to no key at all. -/
def value? (s : Scanner) : Option Scanner := do
  match s.key with
  | some k =>
    if PossibleKey.reaches k s.cursor then
      let s := { s with key := none }
      let s :=
        if s.opensAt k.column then
          (s.insert k.position [.blockMappingStart, .key]).enter k.column
        else s.insert k.position [.key]
      return s.accept .value 1 false
    else if k.isRequired then none
    else unkeyed { s with key := none }
  | none => unkeyed s
where
  /-- A colon without a key that has started before it. -/
  unkeyed (s : Scanner) : Option Scanner :=
    if s.isInFlow then some (s.accept .value 1 false)
    else if !s.allowsKey then none
    else
      let column := s.cursor.column
      let s := if s.opensAt column then (s.push .blockMappingStart).enter column else s
      some (s.accept .value 1 true)

/-- The start of a flow collection. -/
def flowStart? (s : Scanner) (t : Token) : Option Scanner := do
  let s ← s.noteKey?
  let s := s.accept t 1 true
  return { s with key := none, outerKeys := s.key :: s.outerKeys }

/-- The end of a flow collection. -/
def flowEnd? (s : Scanner) (t : Token) : Option Scanner := do
  let s ← s.dropKey?
  let s := s.accept t 1 false
  match s.outerKeys with
  | k :: ks => return { s with key := k, outerKeys := ks }
  | [] => return s

/-- A comma. -/
def flowEntry? (s : Scanner) : Option Scanner := do
  let s ← s.dropKey?
  return s.accept .flowEntry 1 true

/-- An anchor or an alias. -/
def anchor? (s : Scanner) (make : String → Token) : Option Scanner := do
  let s ← s.noteKey?
  let (name, c) ← anchorName? s.cursor.next
  return s.acceptNode (make name) c false

/-- A tag. -/
def tagged? (s : Scanner) : Option Scanner := do
  let s ← s.noteKey?
  let (t, c) ← tag? s.isInFlow s.cursor
  return s.acceptNode t c false

/-- A block scalar. -/
def blockScalar? (s : Scanner) (isLiteral : Bool) : Option Scanner := do
  let s ← s.dropKey?
  let (text, c) ← block? isLiteral s.indent s.cursor.next
  let style := if isLiteral then ScalarStyle.literal else .folded
  return s.acceptNode (.scalar style (String.ofList text)) c true

/-- A scalar in quotation marks. -/
def quotedScalar? (s : Scanner) (mark : Char) : Option Scanner := do
  let s ← s.noteKey?
  let c := s.cursor.next
  let (text, c) ← quoted? mark (c.rest.length + 1) c
  return s.acceptNode (.scalar .quoted (String.ofList text)) c false

/-- A plain scalar. A line that ends behind it allows a key. -/
def plainScalar? (s : Scanner) : Option Scanner := do
  let s ← s.noteKey?
  let (text, hasBreak, c) ← plain? s.isInFlow (s.indent + 1).toNat s.cursor
  return s.acceptNode (.scalar .plain (String.ofList text)) c hasBreak

/-- A directive. -/
def directive? (s : Scanner) : Option Scanner := do
  let s ← s.leaveBlocks?
  let (t, c) ← Yaml.directive? s.cursor
  return s.acceptNode t c false

/-- A mark between documents. -/
def mark? (s : Scanner) (t : Token) : Option Scanner := do
  let s ← s.leaveBlocks?
  return s.accept t 3 false

/-- Passes over blanks, comments and line breaks. Where a key may start, indentation is made of
spaces only. -/
def toNextToken : (fuel : Nat) → Scanner → Scanner
  | 0, s => s
  | fuel + 1, s =>
    let c := s.cursor
    let c := if c.column = 0 ∧ c.rest.head? = some '\ufeff' then c.next else c
    let c := c.skip fun a => a == ' ' || (a == '\t' && (s.isInFlow || !s.allowsKey))
    let c := if c.rest.head? = some '#' then c.skip (fun a => !isBreak a) else c
    if c.rest.head?.any isBreak then
      toNextToken fuel { s with cursor := c.nextLine, allowsKey := s.allowsKey || !s.isInFlow }
    else s.moveTo c

/-- Whether a plain scalar starts at a place. -/
def startsPlain (isFlow : Bool) : List Char → Bool
  | [] => false
  | a :: r =>
    !(isGap a || "-?:,[]\x7b\x7d#&*!|>'\"%@`".toList.contains a) ||
      (a == '-' && !r.head?.any isBlank) || (!isFlow && (a == '?' || a == ':') && !endsHere r)

/-- Reads the next token, at the place where it starts. -/
def token? (s : Scanner) : Option Scanner :=
  let c := s.cursor
  match c.rest with
  | [] => none
  | a :: r =>
    if c.column = 0 ∧ a = '%' then s.directive?
    else if c.isAtMark then s.mark? (if a = '-' then .documentStart else .documentEnd)
    else if a = '[' then s.flowStart? .flowSequenceStart
    else if a = '\x7b' then s.flowStart? .flowMappingStart
    else if a = ']' then s.flowEnd? .flowSequenceEnd
    else if a = '\x7d' then s.flowEnd? .flowMappingEnd
    else if a = ',' then s.flowEntry?
    else if a = '-' ∧ endsHere r then s.blockEntry?
    else if a = '?' ∧ (s.isInFlow ∨ endsHere r) then s.markedKey?
    else if a = ':' ∧ (s.isInFlow ∨ endsHere r) then s.value?
    else if a = '*' then s.anchor? .alias
    else if a = '&' then s.anchor? .anchor
    else if a = '!' then s.tagged?
    else if a = '|' ∧ !s.isInFlow then s.blockScalar? true
    else if a = '>' ∧ !s.isInFlow then s.blockScalar? false
    else if a = '\'' ∨ a = '"' then s.quotedScalar? a
    else if startsPlain s.isInFlow c.rest then s.plainScalar?
    else none

/-- Reads tokens up to the end of the text. -/
def run : (fuel : Nat) → Scanner → Option (List Token)
  | 0, _ => none
  | fuel + 1, s => do
    let s := s.toNextToken (s.cursor.rest.length + 1)
    let s := s.dedent s.cursor.column
    if s.cursor.rest.isEmpty then
      let s ← s.leaveBlocks?
      return s.tokens.toList
    else run fuel (← s.token?)

end Scanner

/-- The tokens of a text. -/
def tokens? (cs : List Char) : Option (List Token) :=
  if cs.all isAllowed then Scanner.run (cs.length + 1) (.start cs) else none

end CommandSchema.Yaml
