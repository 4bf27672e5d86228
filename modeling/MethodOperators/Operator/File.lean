import MethodOperators.Error
import MethodOperators.Operator.ConfigText

/-!
# Configuration files

A table read from a file. What the file system has to say is an argument: the bytes of the file, or
nothing if there is no such file.
-/

namespace MethodOperators

/-- The text of a file. -/
def fileText (path : String) (contents : Option ByteArray) : Except Error String :=
  match contents with
  | none => .error (.file path .notFound)
  | some bytes =>
    match String.fromUTF8? bytes with
    | some source => .ok source
    | none => .error (.file path .notText)

/-- The standard table with the configuration applied that a file holds. -/
def OperatorTable.ofFile (path : String) (contents : Option ByteArray) :
    Except Error OperatorTable := do
  let source ← fileText path contents
  (OperatorTable.ofText source).mapError .config

end MethodOperators
