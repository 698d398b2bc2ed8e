import CommandSchema.Json.Numeral

/-!
# Reading JSON

What can be read of a JSON text from its start to the first place that breaks the rules. The tree
keeps that place, and says of every list and record whether its end was reached, so that a decoder
that walks through the tree meets the break and faults of contents in the order of the text.
-/

namespace CommandSchema.Json

/-- The tree of a text up to its first break. -/
inductive Reading
  | null
  | bool (b : Bool)
  | number (n : Numeral)
  /-- A string; it is no text if it holds half of a surrogate pair. -/
  | text (s : Option String)
  | list (items : List Reading) (isClosed : Bool)
  /-- Members with their keys. Where the colon is missing, the value is broken. -/
  | record (members : List (Option String × Reading)) (isClosed : Bool)
  /-- A list or record that is nested too deeply. -/
  | tooDeep (isList isClosed : Bool)
  /-- No value can be read here. -/
  | broken

/-- Whether a character may stand between tokens. -/
def isSpace (c : Char) : Bool :=
  c == ' ' || c == '\t' || c == '\n' || c == '\r'

/-- A text without the space at its front. -/
def skipSpace (cs : List Char) : List Char :=
  cs.dropWhile isSpace

/-- A piece of a string: a character, or half of a surrogate pair that is written as an escape. -/
inductive Piece
  | char (c : Char)
  | high (n : Nat)
  | low (n : Nat)
  deriving DecidableEq, Repr

/-- The value of a digit of base sixteen. -/
def hexDigit? (c : Char) : Option Nat :=
  if c.isDigit then some (c.toNat - '0'.toNat)
  else if 'a' ≤ c ∧ c ≤ 'f' then some (c.toNat - 'a'.toNat + 10)
  else if 'A' ≤ c ∧ c ≤ 'F' then some (c.toNat - 'A'.toNat + 10)
  else none

/-- The piece with a number of 16 bits. -/
def Piece.ofUnit (n : Nat) : Piece :=
  if 0xD800 ≤ n ∧ n < 0xDC00 then .high (n - 0xD800)
  else if 0xDC00 ≤ n ∧ n < 0xE000 then .low (n - 0xDC00)
  else .char (Char.ofNat n)

/-- The character that a short escape stands for. -/
def shortEscape? : Char → Option Char
  | '"' => some '"'
  | '\\' => some '\\'
  | '/' => some '/'
  | 'b' => some '\x08'
  | 'f' => some '\x0c'
  | 'n' => some '\n'
  | 'r' => some '\r'
  | 't' => some '\t'
  | _ => none

/-- The pieces of a string after its opening mark, and what follows its closing mark. Control
characters need an escape. -/
def pieces? : List Char → Option (List Piece × List Char)
  | [] => none
  | '"' :: cs => some ([], cs)
  | '\\' :: 'u' :: a :: b :: c :: d :: cs => do
    let n ← [a, b, c, d].foldlM (fun n x => (hexDigit? x).map (n * 16 + ·)) 0
    let (ps, rest) ← pieces? cs
    return (.ofUnit n :: ps, rest)
  | '\\' :: e :: cs => do
    let c ← shortEscape? e
    let (ps, rest) ← pieces? cs
    return (.char c :: ps, rest)
  | c :: cs =>
    if c.toNat < 0x20 ∨ c = '\\' then none
    else do
      let (ps, rest) ← pieces? cs
      return (.char c :: ps, rest)

/-- The characters that pieces make up; the halves of a pair have to follow each other. -/
def joinPieces? : List Piece → Option (List Char)
  | [] => some []
  | .char c :: ps => (joinPieces? ps).map (c :: ·)
  | .high h :: .low l :: ps => (joinPieces? ps).map (Char.ofNat (0x10000 + h * 0x400 + l) :: ·)
  | _ => none

/-- Reads a string after its opening mark. -/
def string? (cs : List Char) : Option (Option String × List Char) :=
  (pieces? cs).map fun (ps, rest) => ((joinPieces? ps).map String.ofList, rest)

/-- Reads a number. -/
def number (cs : List Char) : Reading × Option (List Char) :=
  match numberText? cs with
  | some (t, rest) => (.number t.numeral, some rest)
  | none => (.broken, none)

/-- How deep lists and records may be nested. -/
def maxDepth : Nat := 127

mutual

/-- Reads a value, and what follows it if nothing is broken. Lists and records may be nested
`depth` levels deep. -/
def value : (fuel depth : Nat) → List Char → Reading × Option (List Char)
  | 0, _, _ => (.broken, none)
  | fuel + 1, depth, cs =>
    match skipSpace cs with
    | 'n' :: 'u' :: 'l' :: 'l' :: rest => (.null, some rest)
    | 't' :: 'r' :: 'u' :: 'e' :: rest => (.bool true, some rest)
    | 'f' :: 'a' :: 'l' :: 's' :: 'e' :: rest => (.bool false, some rest)
    | '"' :: rest =>
      match string? rest with
      | some (s, rest) => (.text s, some rest)
      | none => (.broken, none)
    | '[' :: rest =>
      let (items, rest) := match skipSpace rest with
        | ']' :: rest => ([], some rest)
        | rest => items fuel (depth - 1) rest
      (if depth = 0 then .tooDeep true rest.isSome else .list items rest.isSome, rest)
    | '\x7b' :: rest =>
      match skipSpace rest with
      | '\x7d' :: rest => (if depth = 0 then .tooDeep false true else .record [] true, some rest)
      | rest =>
        let (members, rest) := members fuel (depth - 1) rest
        (if depth = 0 then .tooDeep false rest.isSome else .record members rest.isSome, rest)
    | c :: rest => if c = '-' ∨ c.isDigit then number (c :: rest) else (.broken, none)
    | [] => (.broken, none)

/-- Reads the items of a list, and what follows its end. -/
def items : (fuel depth : Nat) → List Char → List Reading × Option (List Char)
  | 0, _, _ => ([], none)
  | fuel + 1, depth, cs =>
    match value fuel depth cs with
    | (v, none) => ([v], none)
    | (v, some rest) =>
      match skipSpace rest with
      | ',' :: rest =>
        let (vs, rest) := items fuel depth rest
        (v :: vs, rest)
      | ']' :: rest => ([v], some rest)
      | _ => ([v], none)

/-- Reads the members of a record, and what follows its end. -/
def members : (fuel depth : Nat) → List Char →
    List (Option String × Reading) × Option (List Char)
  | 0, _, _ => ([], none)
  | fuel + 1, depth, cs =>
    match skipSpace cs with
    | '"' :: rest =>
      match string? rest with
      | none => ([], none)
      | some (key, rest) =>
        match skipSpace rest with
        | ':' :: rest =>
          match value fuel depth rest with
          | (v, none) => ([(key, v)], none)
          | (v, some rest) =>
            match skipSpace rest with
            | ',' :: rest =>
              let (ms, rest) := members fuel depth rest
              ((key, v) :: ms, rest)
            | '\x7d' :: rest => ([(key, v)], some rest)
            | _ => ([(key, v)], none)
        | _ => ([(key, .broken)], none)
    | _ => ([], none)

end

/-- Reads a text: its tree, and whether nothing but space follows. -/
def read (text : String) : Reading × Bool :=
  let cs := text.toList
  let (v, rest) := value (2 * cs.length + 2) maxDepth cs
  (v, rest.any fun r => (skipSpace r).isEmpty)

namespace Reading

/-- Whether the end of a part was reached. -/
def isWhole : Reading → Bool
  | list _ isClosed | record _ isClosed | tooDeep _ isClosed => isClosed
  | broken => false
  | _ => true

end Reading

end CommandSchema.Json
