import CommandSchema.Files.Error
import CommandSchema.Files.Path

/-!
# Trees of files

Files and directories by their location: the list of names from the root. A path is followed from
the current directory or from the root; every name but the last has to be a directory.
-/

namespace CommandSchema

/-- The names from the root to a file or directory. -/
abbrev Location := List String

/-- What is found at a location. -/
inductive FileNode
  | file (bytes : ByteArray)
  | directory

/-- The files that there are, and the current directory. -/
structure FileTree where
  /-- Everything but the root, one entry for each location. -/
  nodes : List (Location × FileNode)
  current : Location

namespace FileTree

/-- What is found at a location. The root is a directory. -/
def node? (t : FileTree) (l : Location) : Option FileNode :=
  if l = [] then some .directory else (t.nodes.find? fun n => n.1 == l).map Prod.snd

/-- The tree with a node at a location, in place of what was there. -/
def put (t : FileTree) (l : Location) (node : FileNode) : FileTree :=
  { t with nodes := t.nodes.filter (fun n => n.1 != l) ++ [(l, node)] }

/-- Follows names from a location. What they lead to need not exist. -/
def walk (t : FileTree) : Location → List String → Except IoError Location
  | l, [] => .ok l
  | l, name :: names =>
    match t.node? l with
    | none => .error .notFound
    | some (.file _) => .error .notDirectory
    | some .directory =>
      if name = "." then t.walk l names
      else if name = ".." then t.walk l.dropLast names
      else if 255 < name.utf8ByteSize then .error .nameTooLong
      else t.walk (l ++ [name]) names

/-- The location that a path leads to, with more names behind it. -/
def locateWith (t : FileTree) (p : Path) (more : List String) : Except IoError Location :=
  if p.text.toList.contains '\x00' then .error .zeroInPath
  else if p.text = "" then .error .notFound
  else if 4096 ≤ p.text.utf8ByteSize then .error .nameTooLong
  else t.walk (if p.isAbsolute then [] else t.current) (p.names ++ more)

/-- The location that a path leads to. Behind a slash it has to be a directory. -/
def locate (t : FileTree) (p : Path) : Except IoError Location :=
  t.locateWith p (if p.endsWithSlash then ["."] else [])

/-- What a path leads to. -/
def find (t : FileTree) (p : Path) : Except IoError FileNode := do
  match t.node? (← t.locate p) with
  | some node => return node
  | none => throw .notFound

/-- The contents of a file. -/
def readBytes (t : FileTree) (p : Path) : Except IoError ByteArray := do
  match ← t.find p with
  | .file bytes => return bytes
  | .directory => throw .isDirectory

/-- The contents of a file, which have to be a text. -/
def readText (t : FileTree) (p : Path) : Except IoError String := do
  match String.fromUTF8? (← t.readBytes p) with
  | some text => return text
  | none => throw .notText

/-- Whether a path leads to a directory. -/
def isDirectory (t : FileTree) (p : Path) : Bool :=
  match t.find p with
  | .ok .directory => true
  | _ => false

/-- Whether a path leads to a file. -/
def isFile (t : FileTree) (p : Path) : Bool :=
  match t.find p with
  | .ok (.file _) => true
  | _ => false

/-- The names in a directory. -/
def entries (t : FileTree) (p : Path) : Except IoError (List String) := do
  let l ← t.locate p
  match t.node? l with
  | some .directory =>
    return t.nodes.filterMap fun (l', _) => if l'.dropLast = l then l'.getLast? else none
  | some (.file _) => throw .notDirectory
  | none => throw .notFound

/-- The tree with a new directory. -/
def createDirectory (t : FileTree) (p : Path) : Except IoError FileTree := do
  let l ← t.locateWith p []
  match t.node? l with
  | some _ => throw .alreadyExists
  | none => return t.put l .directory

/-- The tree with a directory that need not be new. -/
def ensureDirectory (t : FileTree) (p : Path) : Except IoError FileTree :=
  match t.createDirectory p with
  | .error e => if t.isDirectory p then .ok t else .error e
  | r => r

/-- The tree with a directory and those around it. What could be created stays also if something
else could not. -/
def ensureDirectories : (fuel : Nat) → FileTree → Path → FileTree × Except IoError Unit
  | 0, t, _ => (t, .error .notFound)
  | fuel + 1, t, p =>
    if p.text = "" then (t, .ok ())
    else
      match t.createDirectory p, p.parent? with
      | .error .notFound, some parent =>
        match ensureDirectories fuel t parent with
        | (t, .ok ()) =>
          match t.ensureDirectory p with
          | .ok t => (t, .ok ())
          | .error e => (t, .error e)
        | failed => failed
      | _, _ =>
        match t.ensureDirectory p with
        | .ok t => (t, .ok ())
        | .error e => (t, .error e)

/-- The tree with a file of given contents. -/
def writeFile (t : FileTree) (p : Path) (bytes : ByteArray) : Except IoError FileTree := do
  let l ← t.locateWith p []
  if p.endsWithSlash then throw .isDirectory
  else
    match t.node? l with
    | some .directory => throw .isDirectory
    | _ => return t.put l (.file bytes)

end FileTree

end CommandSchema
