import CommandSchema.Value

/-!
# Parse errors

Why a command line does not fit a schema. Options stand in an error as the user wrote them.
-/

namespace CommandSchema

/-- A reason why a list of tokens does not fit a schema. -/
inductive ParseError
  /-- No option has this form. -/
  | unknownOption (option : String)
  /-- A value is attached to an option that takes none. -/
  | unexpectedValue (option value : String)
  /-- An option takes a value and none follows. -/
  | missingValue (option : String)
  /-- A value does not convert to the type of its field. -/
  | invalidValue (option value : String) (reason : Text.IntegerFault)
  /-- No token is left for a required positional field. -/
  | missingPositional (name : String)
  /-- A positional token is left over. -/
  | unexpectedPositional (token : String)
  /-- A required option is not supplied. -/
  | missingRequiredOption (option : String)
  deriving DecidableEq, Repr

namespace ParseError

/-- The wording of an error. -/
def message : ParseError → String
  | unknownOption option => "unknown option `" ++ option ++ "`"
  | unexpectedValue option value =>
    "option `" ++ option ++ "` does not take a value, got " ++ Text.quote value
  | missingValue option => "expected a value for `" ++ option ++ "`"
  | invalidValue option value reason =>
    "invalid value " ++ Text.quote value ++ " for `" ++ option ++ "`: " ++ reason.message
  | missingPositional name => "missing positional argument `" ++ name ++ "`"
  | unexpectedPositional token => "unexpected positional argument " ++ Text.quote token
  | missingRequiredOption option => "option `" ++ option ++ "` is required"

end ParseError

/-- The value of a token at a type, with the error that names the option it was given to. -/
def convertFor (option : String) (type : ValueType) (raw : String) : Except ParseError Value :=
  match type.convert raw with
  | .ok value => .ok value
  | .error reason => .error (.invalidValue option raw reason)

end CommandSchema
