import MethodOperators.Expr
import MethodOperators.Inquiry
import MethodOperators.Resolution

/-!
# Method calls

A call `receiver.name(arguments)` means the first method of that name, in the order in which the
type system tells them, that has as many parameters as there are arguments and takes each of them.
There is no ranking among methods that would do. The type of the call is the result type of that
method, with the parameters of the receiver's declaration filled in.

A call with an unknown type in it cannot be resolved, and no question is asked about it.
-/

namespace MethodOperators

variable {S : TypeSystem}

/-- Whether each argument may be passed for the parameter at its position. The first one that may
not settles the matter. -/
def accepts (subst : S.Subst) : (params args : List S.Ty) → Inquiry S Bool
  | param :: params, arg :: args => do
    if ← Inquiry.assignable (S.substitute subst param) arg then accepts subst params args
    else return false
  | _, _ => return true

/-- The result type of the first method that takes the arguments. -/
def firstApplicable (subst : S.Subst) (args : List S.Ty) :
    List (Signature S.Ty) → Inquiry S (Resolution S.Ty)
  | [] => return .unresolved
  | sig :: sigs =>
    if sig.arity = args.length then do
      if ← accepts subst sig.params args then return .resolved (S.substitute subst sig.result)
      else firstApplicable subst args sigs
    else firstApplicable subst args sigs

/-- All values of a list, if each one is known. -/
def allKnown {α : Type} : List (Option α) → Option (List α)
  | [] => some []
  | none :: _ => none
  | some a :: rest => (allKnown rest).map (a :: ·)

theorem allKnown_map_some {α : Type} (as : List α) : allKnown (as.map some) = some as := by
  induction as with
  | nil => rfl
  | cons a as ih => rw [List.map_cons, allKnown, ih, Option.map_some]

theorem allKnown_eq_some_iff {α : Type} {xs : List (Option α)} {as : List α} :
    allKnown xs = some as ↔ xs = as.map some := by
  refine ⟨fun h => ?_, fun h => h ▸ allKnown_map_some as⟩
  induction xs generalizing as with
  | nil =>
    obtain rfl := Option.some.inj h
    rfl
  | cons x xs ih =>
    cases x with
    | none => cases h
    | some a =>
      obtain ⟨rest, hrest, rfl⟩ := Option.map_eq_some_iff.1 h
      rw [List.map_cons, ih hrest]

theorem allKnown_eq_none_iff {α : Type} {xs : List (Option α)} :
    allKnown xs = none ↔ none ∈ xs := by
  induction xs with
  | nil => simp [allKnown]
  | cons x xs ih => cases x <;> simp [allKnown, ih]

/-- Resolves a call of which all types are known. -/
def resolveKnown (receiver : S.Ty) (name : String) (args : List S.Ty) :
    Inquiry S (Resolution S.Ty) := do
  match ← Inquiry.declaration receiver with
  | none => return .unresolved
  | some decl =>
    let sigs ← Inquiry.methods decl name
    if sigs.isEmpty then return .unresolved
    else
      let subst ← Inquiry.binding receiver
      firstApplicable subst args sigs

/-- Resolves the call of a method on a receiver. Where the type of the receiver or of an argument
is unknown, or the name is empty, it stays unresolved without a question. -/
def resolve (receiver : Option S.Ty) (name : String) (args : List (Option S.Ty)) :
    Inquiry S (Resolution S.Ty) :=
  match receiver, allKnown args with
  | some receiver, some args =>
    if name.isEmpty then return .unresolved else resolveKnown receiver name args
  | _, _ => return .unresolved

/-- Resolves the call of a method on a receiver, all given as expressions that may be missing. -/
def resolveExprs (receiver : Option (Expr S.Ty)) (name : String)
    (args : List (Option (Expr S.Ty))) : Inquiry S (Resolution S.Ty) :=
  match receiver.bind Expr.ty, allKnown (args.map fun arg => arg.bind Expr.ty) with
  | some receiver, some args => resolve (some receiver) name (args.map some)
  | _, _ => return .unresolved

end MethodOperators
