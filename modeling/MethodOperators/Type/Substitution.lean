import MethodOperators.Dictionary
import MethodOperators.Type.Basic
import MethodOperators.Type.Signature

/-!
# Substitutions

A substitution replaces type parameters by types. Parameters that it does not mention stay as they
are, and a replacement is not itself substituted into again.
-/

namespace MethodOperators

/-- Replacements for type parameters. -/
structure Substitution where
  /-- The parameters that are replaced, with what replaces them. -/
  replacements : Dictionary TypeVar Ty

namespace Substitution

/-- The substitution that replaces nothing. -/
def empty : Substitution := ⟨.empty⟩

instance : Inhabited Substitution := ⟨empty⟩

/-- What replaces `v`, if anything does. -/
def find? (s : Substitution) (v : TypeVar) : Option Ty := s.replacements.find? v

/-- Makes `t` the replacement of `v`. -/
def insert (s : Substitution) (v : TypeVar) (t : Ty) : Substitution :=
  ⟨s.replacements.insert v t⟩

/-- Number of parameters that are replaced. -/
def size (s : Substitution) : Nat := s.replacements.size

/-- Whether nothing is replaced. -/
def isEmpty (s : Substitution) : Bool := s.replacements.isEmpty

/-- The parameters of a declaration replaced by arguments, position by position. Where one
parameter is listed twice its last argument counts. Lists of different lengths do not belong
together, and then nothing is replaced. -/
def ofArgs (params : List TypeVar) (args : List Ty) : Substitution :=
  if params.length = args.length then ⟨.ofList (params.zip args)⟩ else empty

mutual

/-- Replaces every parameter that occurs in a type. -/
def replace (s : Substitution) : Ty → Ty
  | .primitive kind => .primitive kind
  | .nominal id args => .nominal id (replaceAll s args)
  | .var v => (s.find? v).getD (.var v)
  | .array element => .array (replace s element)
  | .null => .null

/-- Replaces every parameter that occurs in a list of types. -/
def replaceAll (s : Substitution) : List Ty → List Ty
  | [] => []
  | t :: ts => replace s t :: replaceAll s ts

end

/-- Replaces every parameter that occurs in a type; a substitution without entries hands the type
back as it is. -/
def apply (s : Substitution) (t : Ty) : Ty := if s.isEmpty then t else s.replace t

/-- Replaces every parameter that occurs in the arguments of a class type. -/
def applyToClass (s : Substitution) (ct : ClassType) : ClassType := ⟨ct.id, ct.args.map s.apply⟩

/-- Replaces every parameter that occurs in a signature. -/
def applyToSignature (s : Substitution) (sig : Signature Ty) : Signature Ty := sig.map s.apply

theorem replaceAll_eq_map (s : Substitution) (ts : List Ty) : s.replaceAll ts = ts.map s.replace := by
  induction ts with
  | nil => rfl
  | cons t ts ih => rw [replaceAll, ih, List.map_cons]

end Substitution

end MethodOperators
