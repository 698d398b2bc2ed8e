import CommandSchema.Generated.Identifier
import CommandSchema.Parse.Error
import CommandSchema.SchemaSet

/-!
# Complaints of the command line

Why an invocation fails, and how the program says so.
-/

namespace CommandSchema

/-- Why an invocation fails. -/
inductive Complaint
  /-- The arguments do not say what to do. -/
  | usage
  | load (e : LoadError)
  /-- The schema that is asked for is not among those that were loaded. -/
  | lookup (e : LoadError)
  /-- The tokens do not fit the schema. -/
  | rejected (e : ParseError)
  | linesRejected (count total : Nat)
  | invalidIdentifier (e : Generated.InvalidIdentifier)
  | unreadable (path : Path) (e : IoError)
  /-- A generated file differs from what would be generated. -/
  | outdated (path : Path) (schema structName : String)
  | noOutputDirectory (path : Path) (e : IoError)
  | unwritable (path : Path) (e : IoError)
  deriving DecidableEq

namespace Complaint

/-- The wording of a complaint. -/
def message : Complaint → String
  | usage => "the arguments could not be understood"
  | load e => "Failed to load definitions: " ++ e.message
  | lookup e => e.message
  | rejected e => e.message
  | linesRejected count total =>
    Text.decimal count ++ " of " ++ Text.decimal total ++ " line(s) rejected"
  | invalidIdentifier e => e.message
  | unreadable path e => "Failed to read '" ++ path.text ++ "': " ++ e.message
  | outdated path schema structName =>
    "'" ++ path.text ++ "' is out of date with schema `" ++ schema ++ "` as `" ++ structName ++
      "`; rerun generate"
  | noOutputDirectory path e =>
    "Failed to create output directory '" ++ path.text ++ "': " ++ e.message
  | unwritable path e => "Failed to write '" ++ path.text ++ "': " ++ e.message

/-- The exit status: two where a command line is at fault, one where files are. -/
def status : Complaint → UInt32
  | usage | rejected _ | linesRejected _ _ => 2
  | _ => 1

end Complaint

end CommandSchema
