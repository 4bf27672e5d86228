import MethodOperators.Span

/-!
# Expressions

Expressions as a checker hands them over, with the type it found for each of them and the range of
the source text. Only the shapes that can stand for a method call are told apart. Code that is
being written has gaps, so parts may be missing and types unknown.
-/

namespace MethodOperators

mutual

/-- An expression over types `τ`. -/
inductive Expr (τ : Type) where
  /-- A shape with a type, if one is known, and a range of the source text. -/
  | mk (shape : Shape τ) (ty : Option τ) (span : Span)

/-- The shape of an expression. -/
inductive Shape (τ : Type) where
  /-- A chain `o₀ t₀ o₁ t₁ …` of operands with a token between each two. -/
  | chain (operands : List (Expr τ)) (tokens : List String)
  /-- A token before an operand. -/
  | unary (token : String) (operand : Option (Expr τ))
  /-- An access `container[index]`. -/
  | index (container : Expr τ) (index : Option (Expr τ))
  /-- An assignment `target token value`, plain or compound. -/
  | assign (token : String) (target : Expr τ) (value : Option (Expr τ))
  /-- Everything else. -/
  | leaf

end

namespace Expr

variable {τ : Type}

/-- The shape of an expression. -/
def shape : Expr τ → Shape τ
  | mk shape _ _ => shape

/-- The type of an expression, if it is known. -/
def ty : Expr τ → Option τ
  | mk _ ty _ => ty

/-- The range of the source text. -/
def span : Expr τ → Span
  | mk _ _ span => span

/-- An expression without a shape of its own. -/
def leaf (ty : Option τ) (span : Span) : Expr τ := mk .leaf ty span

/-- A chain from its first operand to its last. -/
def chain (operands : List (Expr τ)) (tokens : List String) : Expr τ :=
  let span := match operands.head?, operands.getLast? with
    | some first, some last => first.span.through last.span
    | _, _ => .zero
  mk (.chain operands tokens) none span

/-- A token before an operand. -/
def unary (token : String) (operand : Option (Expr τ)) (span : Span) : Expr τ :=
  mk (.unary token operand) none span

/-- An access to a container. -/
def index (container : Expr τ) (index : Option (Expr τ)) (span : Span) : Expr τ :=
  mk (.index container index) none span

/-- An assignment, from its target to its value. -/
def assign (token : String) (target : Expr τ) (value : Option (Expr τ)) : Expr τ :=
  let span := match value with
    | some value => target.span.through value.span
    | none => target.span
  mk (.assign token target value) none span

/-- The same expression with a type. -/
def setType (e : Expr τ) (ty : τ) : Expr τ := mk e.shape (some ty) e.span

/-- The same expression with another range. -/
def setSpan (e : Expr τ) (span : Span) : Expr τ := mk e.shape e.ty span

end Expr

/-- The declaration of a variable. -/
structure VarDecl (τ : Type) where
  /-- The declared type, if it is known. -/
  ty : Option τ
  /-- Where the type is written. -/
  typeSpan : Span
  span : Span
  /-- The initial value, if there is one. -/
  init : Option (Expr τ)

/-- The range in which a checker reports that the initial value does not fit: from the type to the
end of the declaration. -/
def VarDecl.flaggedSpan {τ : Type} (v : VarDecl τ) : Span := v.typeSpan.through v.span

end MethodOperators
