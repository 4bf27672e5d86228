import MethodOperators.Cancellation
import MethodOperators.Operator.Config
import MethodOperators.Registry.Error

/-!
# Errors

Everything that can go wrong, in one type, with the text that is shown for it.
-/

namespace MethodOperators

/-- Why a file could not be read. -/
inductive FileError where
  /-- There is no such file. -/
  | notFound
  /-- Its contents are not a text in UTF-8. -/
  | notText
  deriving DecidableEq, Repr

/-- The text of a failure to read a file. -/
def FileError.message : FileError → String
  | notFound => "No such file or directory (os error 2)"
  | notText => "stream did not contain valid UTF-8"

/-- Everything that can go wrong. -/
inductive Error where
  | config (cause : ConfigError)
  | declaration (cause : DeclarationError)
  /-- The host called off the work. -/
  | cancelled (cause : Cancelled)
  | file (path : String) (cause : FileError)
  deriving DecidableEq, Repr

namespace Error

/-- The text of an error. -/
def message : Error → String
  | config cause => cause.message
  | declaration cause => cause.message
  | cancelled cause => cause.message
  | file path cause => "failed to read " ++ path ++ ": " ++ cause.message

/-- Whether the host called off the work. -/
def isCancelled : Error → Bool
  | cancelled _ => true
  | config _ | declaration _ | file _ _ => false

/-- The reason for which a configuration was refused. -/
def configError? : Error → Option ConfigError
  | config cause => some cause
  | declaration _ | cancelled _ | file _ _ => none

end Error

end MethodOperators
