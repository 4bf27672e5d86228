/-!
# Primitive types

The built-in value types and the conversions between them that lose no range. Six of them stand on
a ladder, `byte`, `short`, `int`, `long`, `float`, `double`, and each converts to every one above
it. A `char` stands beside the ladder: it converts to `int` and to all that is above, and nothing
converts to it. A `boolean` converts to itself only, and `void` to nothing at all.
-/

namespace MethodOperators

/-- The built-in value types. -/
inductive Primitive where
  | boolean
  | byte
  | short
  | char
  | int
  | long
  | float
  | double
  | void
  deriving DecidableEq, Repr

namespace Primitive

/-- Every primitive type. -/
def all : List Primitive := [boolean, byte, short, char, int, long, float, double, void]

/-- The keyword of a primitive type. -/
def name : Primitive → String
  | boolean => "boolean"
  | byte => "byte"
  | short => "short"
  | char => "char"
  | int => "int"
  | long => "long"
  | float => "float"
  | double => "double"
  | void => "void"

/-- The primitive type of a keyword. -/
def ofName? (name : String) : Option Primitive := all.find? (fun p => p.name == name)

/-- The rung of a type on the ladder of numeric types, if it stands on one. -/
def rung? : Primitive → Option Nat
  | byte => some 1
  | short => some 2
  | int => some 3
  | long => some 4
  | float => some 5
  | double => some 6
  | boolean | char | void => none

/-- Whether a value of type `source` may be used as one of type `target`, unchanged or widened. -/
def widensTo (source target : Primitive) : Bool :=
  if source = target then decide (source ≠ void)
  else if source = char then decide (target ∈ [int, long, float, double])
  else match source.rung?, target.rung? with
    | some low, some high => decide (low < high)
    | _, _ => false

end Primitive

end MethodOperators
