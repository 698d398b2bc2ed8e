/-!
# Paths

A path is a text. Its components are what stands between slashes; empty ones and single dots count
only at the start.
-/

namespace CommandSchema

/-- The text of a path, as it is given. -/
structure Path where
  text : String
  deriving DecidableEq, Repr

namespace Path

/-- The start of a path that is a component by itself, and the rest: a slash or a single dot. -/
def anchor (cs : List Char) : List Char × List Char :=
  match cs with
  | '/' :: cs => (['/'], cs)
  | ['.'] => (['.'], [])
  | '.' :: '/' :: cs => (['.'], '/' :: cs)
  | cs => ([], cs)

/-- Whether a piece between slashes is a component. -/
def isComponent (piece : List Char) : Bool :=
  !(piece == [] || piece == ['.'])

/-- Pieces up to the last component. -/
def trimmed (pieces : List (List Char)) : List (List Char) :=
  (pieces.reverse.dropWhile fun p => !isComponent p).reverse

/-- The pieces of a path after its anchor, up to the last component. -/
def pieces (p : Path) : List (List Char) :=
  trimmed ((anchor p.text.toList).2.splitOn '/')

/-- The last component, if it is a name. -/
def fileName? (p : Path) : Option (List Char) :=
  p.pieces.getLast?.filter (· != ['.', '.'])

/-- What follows the last dot of the name, unless the dot is at its start. -/
def extension? (p : Path) : Option String :=
  p.fileName?.bind fun name =>
    let ending := name.reverse.takeWhile (· != '.')
    if ending.length + 1 < name.length then some (String.ofList ending.reverse) else none

/-- The path without its last component. -/
def parent? (p : Path) : Option Path :=
  let root := (anchor p.text.toList).1
  match p.pieces with
  | [] => if root = ['.'] then some ⟨""⟩ else none
  | pieces => some ⟨String.ofList (root ++ ['/'].intercalate (trimmed pieces.dropLast))⟩

/-- A name in a directory. -/
def join (p : Path) (name : String) : Path :=
  ⟨if p.text = "" ∨ p.text.toList.getLast? = some '/' then p.text ++ name
    else p.text ++ "/" ++ name⟩

/-- Whether a path starts at the root. -/
def isAbsolute (p : Path) : Bool :=
  p.text.toList.head? == some '/'

/-- Whether a path ends with a slash and so can only name a directory. -/
def endsWithSlash (p : Path) : Bool :=
  p.text.toList.getLast? == some '/'

/-- The names that a path leads through, single and double dots among them. -/
def names (p : Path) : List String :=
  ((p.text.toList.splitOn '/').filter (· != [])).map String.ofList

end Path

end CommandSchema
