import MethodOperators.Registry.Hierarchy

/-!
# Subtyping and assignability

Whether a value of one type may be used where another type is expected. A value of a class may be
used as one of every supertype; type arguments have to be equal, but a raw use goes with all
arguments. Primitive values widen. They turn into the class that stands for them and back. The
null reference fits every reference type, arrays of references follow their elements, and a type
parameter may be used wherever its bound may.
-/

namespace MethodOperators

/-- Whether a class type found among the supertypes of another is the one wanted: the class is the
same, and so are the arguments unless one of the two is raw. -/
def ClassType.fits (found wanted : ClassType) : Bool :=
  decide (found.id = wanted.id) &&
    (wanted.args.isEmpty || found.args.isEmpty || decide (found.args = wanted.args))

namespace Registry

/-- Whether `sup` is a supertype of `sub`, or the same. The root is a supertype of every class. -/
def isSubtype (reg : Registry) (sub sup : ClassType) : Bool :=
  reg.isRoot sup.id || (reg.ancestors .breadthFirst sub).any (fun ct => ct.fits sup)

/-- How often a type is replaced by what it stands for: a primitive by its box, a type parameter by
its bound, an array by its elements. -/
def maxConversions : Nat := 16

/-- Assignability with fewer than `fuel` replacements of a type by what it stands for. -/
def assignableWithin (reg : Registry) : (fuel : Nat) → (target source : Ty) → Bool
  | 0, _, _ => false
  | fuel + 1, target, source =>
    if target = .void ∨ source = .void then false
    else if target = source then true
    else match source, target with
      | .null, _ => target.isReference
      | .primitive k, .primitive l => k.widensTo l
      | .primitive _, .null => false
      | .primitive k, _ => (reg.box? k).any fun box => assignableWithin reg fuel target (.simple box)
      | .nominal id _, .primitive l => (reg.unbox? id).any fun k => k.widensTo l
      | .nominal sub args, .nominal sup params => reg.isSubtype ⟨sub, args⟩ ⟨sup, params⟩
      | .nominal .., _ => false
      | .array _, .nominal id _ => reg.isRoot id
      | .array s, .array t => t.isReference && s.isReference && assignableWithin reg fuel t s
      | .array _, _ => false
      | .var _, .primitive _ => false
      | .var _, .null => false
      | .var v, _ =>
        match reg.bound? v with
        | some bound => assignableWithin reg fuel target bound
        | none => target.asClass?.any fun ct => reg.isRoot ct.id

/-- Whether a value of type `source` may be used where `target` is expected. -/
def isAssignable (reg : Registry) (target source : Ty) : Bool :=
  reg.assignableWithin (maxConversions + 1) target source

end Registry

end MethodOperators
