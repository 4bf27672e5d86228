/-!
# Resolutions

The result of asking what an operator means: either the operator is a call of some method and the
expression has a type, or nothing could be determined. Not being able to determine a meaning is
an ordinary answer and not an error.
-/

namespace MethodOperators

/-- What became of an attempt to resolve something to a value. -/
inductive Resolution (α : Type) where
  | resolved (value : α)
  | unresolved
  deriving DecidableEq, Repr

namespace Resolution

variable {α β : Type}

/-- Nothing is determined until something is resolved. -/
instance : Inhabited (Resolution α) := ⟨unresolved⟩

/-- Whether there is a value. -/
def isResolved : Resolution α → Bool
  | resolved _ => true
  | unresolved => false

/-- Whether there is no value. -/
def isUnresolved (r : Resolution α) : Bool := !r.isResolved

/-- The value, if there is one. -/
def toOption : Resolution α → Option α
  | resolved a => some a
  | unresolved => none

/-- A missing value is an unresolved one. -/
def ofOption : Option α → Resolution α
  | some a => resolved a
  | none => unresolved

/-- Applies a function to the value, if there is one. -/
def map (f : α → β) : Resolution α → Resolution β
  | resolved a => resolved (f a)
  | unresolved => unresolved

@[simp]
theorem toOption_ofOption (o : Option α) : (ofOption o).toOption = o := by
  cases o <;> rfl

end Resolution

end MethodOperators
