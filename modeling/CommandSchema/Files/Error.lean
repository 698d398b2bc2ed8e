/-!
# Faults of files
-/

namespace CommandSchema

/-- Why a file or directory cannot be used. -/
inductive IoError
  | notFound
  | alreadyExists
  | notDirectory
  | isDirectory
  | nameTooLong
  /-- A path holds the character zero. -/
  | zeroInPath
  /-- The contents of a file are no text. -/
  | notText
  deriving DecidableEq, Repr

namespace IoError

/-- The wording of a fault. -/
def message : IoError → String
  | notFound => "No such file or directory (os error 2)"
  | alreadyExists => "File exists (os error 17)"
  | notDirectory => "Not a directory (os error 20)"
  | isDirectory => "Is a directory (os error 21)"
  | nameTooLong => "File name too long (os error 36)"
  | zeroInPath => "file name contained an unexpected NUL byte"
  | notText => "stream did not contain valid UTF-8"

end IoError

end CommandSchema
