import CommandSchema.Command

/-!
# The program

The files that an invocation names are read from the disk, the command is carried out on what was
read, and the files that it changed are written back.
-/

namespace CommandSchema.Program

/-- A location on the disk. -/
def onDisk (l : Location) : String :=
  "/" ++ "/".intercalate l

/-- The locations that names lead through from a location. -/
def along (l : Location) : List String → List Location
  | [] => [l]
  | "." :: names => along l names
  | ".." :: names => l :: along l.dropLast names
  | name :: names => l :: along (l ++ [name]) names

/-- What the disk holds at a location. -/
def readNode (l : Location) : IO (Option FileNode) := do
  try
    let path ← IO.FS.realPath (onDisk l)
    if ← path.isDir then return some .directory
    else return some (.file (← IO.FS.readBinFile path))
  catch _ => return none

/-- The locations of what the disk holds in a directory. -/
def readEntries (l : Location) : IO (List Location) := do
  try
    let path ← IO.FS.realPath (onDisk l)
    if ← path.isDir then return (← path.readDir).toList.map fun e => l ++ [e.fileName]
    else return []
  catch _ => return []

/-- What the disk holds at and around some paths. -/
def readTree (current : Location) (paths : List Path) : IO FileTree := do
  let mut locations := along [] current
  for p in paths do
    let passed := along (if p.isAbsolute then [] else current) p.names
    let entries ← readEntries (passed.getLast?.getD [])
    locations := locations ++ passed ++ entries
  let mut tree : FileTree := ⟨[], current⟩
  for l in locations.eraseDups do
    if l ≠ [] then
      if let some node ← readNode l then tree := tree.put l node
  return tree

/-- Writes what differs from before to the disk. -/
def writeTree (before after : FileTree) : IO Unit := do
  for (l, node) in after.nodes do
    match node, before.node? l with
    | .directory, none => IO.FS.createDirAll (onDisk l)
    | .file bytes, some (.file old) =>
      if bytes != old then IO.FS.writeBinFile (onDisk l) bytes
    | .file bytes, none => IO.FS.writeBinFile (onDisk l) bytes
    | _, _ => pure ()

end CommandSchema.Program

open CommandSchema in
/-- Carries out the invocation that the arguments say. -/
def main (arguments : List String) : IO UInt32 := do
  let current := ((← IO.currentDir).toString.splitOn "/").filter (· != "")
  let paths := ((Invocation.ofArguments? false arguments).map Invocation.paths).getD []
  let before ← Program.readTree current paths
  let outcome := Command.run before arguments
  Program.writeTree before outcome.files
  (← IO.getStdout).putStr outcome.output
  if let some complaint := outcome.complaint then
    (← IO.getStderr).putStr ("error: " ++ complaint.message ++ "\n")
  return outcome.status
