import CommandSchema.Files.Tree
import CommandSchema.SchemaSet

/-!
# Loading schemas from files

Definition files are read one after the other. The files of a directory are read in the order of
their names, so that the result does not depend on how a directory lists them.
-/

namespace CommandSchema.SchemaSet

/-- The set with the schemas of a file. -/
def loadFile (t : FileTree) (s : SchemaSet) (path : Path) : Except LoadError SchemaSet :=
  match DefinitionFormat.ofPath? path with
  | none => .error (.unsupportedFormat path)
  | some format => do
    s.extendText format (← (t.readText path).mapError .io)

/-- The names of the definition files in a directory, in order. -/
def definitionNames (t : FileTree) (path : Path) : Except IoError (List String) := do
  let names := (← t.entries path).filter fun name =>
    t.isFile (path.join name) && (DefinitionFormat.ofPath? (path.join name)).isSome
  return names.mergeSort fun a b => a ≤ b

/-- The set with the schemas of all definition files in a directory. -/
def loadDirectory (t : FileTree) (s : SchemaSet) (path : Path) : Except LoadError SchemaSet := do
  let names ← (definitionNames t path).mapError LoadError.io
  names.foldlM (fun s name => s.loadFile t (path.join name)) s

/-- The set with the schemas of a file or of a directory, and where they come from. -/
def loadPath (t : FileTree) (loaded : SchemaSet × List Origin) (path : Path) :
    Except LoadError (SchemaSet × List Origin) := do
  let (s, origins) := loaded
  if t.isDirectory path then
    return (← s.loadDirectory t path, origins ++ [.directory path])
  else return (← s.loadFile t path, origins ++ [.file path])

/-- The schemas of a file. -/
def ofFile (t : FileTree) (path : Path) : Except LoadError SchemaSet :=
  (empty (.file path)).loadFile t path

/-- The schemas of a directory. -/
def ofDirectory (t : FileTree) (path : Path) : Except LoadError SchemaSet :=
  (empty (.directory path)).loadDirectory t path

/-- The schemas of files and directories, one after the other. -/
def ofPaths (t : FileTree) (paths : List Path) : Except LoadError SchemaSet := do
  let (s, origins) ← paths.foldlM (loadPath t) (empty (.multiple []), [])
  return { s with origin := .multiple origins }

end CommandSchema.SchemaSet
