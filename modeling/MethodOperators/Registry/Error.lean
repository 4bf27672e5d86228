import MethodOperators.Type.Basic

/-!
# Declaration errors

The reasons for which a registry refuses a declaration or a use of one.
-/

namespace MethodOperators

/-- Why a registry refused. -/
inductive DeclarationError where
  /-- The class is declared already. -/
  | duplicateClass (name : String)
  /-- No class has this name. -/
  | unknownClass (name : String)
  /-- A class lists a type parameter that was never allocated. -/
  | unknownTypeParam (className : String) (param : TypeVar)
  /-- A class was given a wrong number of type arguments. -/
  | wrongArgumentCount (className : String) (expected got : Nat)
  /-- A class that is to play a special part is not declared. -/
  | undeclaredSpecial (id : ClassId)
  deriving DecidableEq, Repr

/-- The text of a refusal. -/
def DeclarationError.message : DeclarationError → String
  | duplicateClass name => "class '" ++ name ++ "' is already registered"
  | unknownClass name => "unknown class '" ++ name ++ "'"
  | unknownTypeParam className param =>
    "class '" ++ className ++ "' references unknown type parameter " ++ param.describe
  | wrongArgumentCount className expected got =>
    "class '" ++ className ++ "' expects " ++ expected.repr ++ " type arguments, got " ++ got.repr
  | undeclaredSpecial id => "well-known class " ++ id.describe ++ " is not registered"

end MethodOperators
