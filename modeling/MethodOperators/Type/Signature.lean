/-!
# Method signatures

What a call of a method needs to know of its declaration: the types of its parameters in order and
the type of its result. The types may be of any kind, since type systems differ in what a type is.
-/

namespace MethodOperators

/-- The types of a method's parameters and of its result. -/
structure Signature (τ : Type) where
  params : List τ
  result : τ
  deriving DecidableEq, Repr

namespace Signature

variable {τ υ : Type}

/-- Number of parameters. -/
def arity (sig : Signature τ) : Nat := sig.params.length

/-- Applies a function to every type of a signature. -/
def map (f : τ → υ) (sig : Signature τ) : Signature υ := ⟨sig.params.map f, f sig.result⟩

end Signature

end MethodOperators
