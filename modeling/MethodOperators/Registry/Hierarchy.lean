import MethodOperators.Registry.Basic
import MethodOperators.Type.Substitution

/-!
# The class hierarchy

The supertypes of a class type are found by carrying its arguments through the supertype clauses
of its declaration. A class without a superclass has the root as one more supertype. Clauses may
form cycles, and the arguments may grow without bound along them, so a walk up the hierarchy looks
at each class once only, at the arguments under which it is met first.
-/

namespace MethodOperators

namespace Registry

/-- What is left of a type parameter when its class is used raw: the class of its bound without
arguments, an array bound as it is, and the root for any other parameter. -/
def erasure? (reg : Registry) (v : TypeVar) : Option Ty :=
  match reg.bound? v with
  | some (.nominal id _) => some (.simple id)
  | some (.array element) => some (.array element)
  | _ => reg.root.map .simple

/-- The substitution that erases parameters. -/
def erasing (reg : Registry) (params : List TypeVar) : Substitution :=
  ⟨.ofList (params.filterMap fun v => (reg.erasure? v).map fun t => (v, t))⟩

/-- What a class type makes of the parameters of its class: they are replaced by the arguments, or
erased in a raw use. -/
def bindingOf (reg : Registry) (ct : ClassType) : Substitution :=
  match reg.class? ct.id with
  | none => .empty
  | some decl =>
    if ct.args.isEmpty then reg.erasing decl.typeParams
    else .ofArgs decl.typeParams ct.args

/-- The root, for a class that has it as a supertype without saying so. -/
def implicitRoot? (reg : Registry) (decl : ClassDecl) : Option ClassId :=
  if decl.superclass.isNone then reg.root.filter (fun root => decide (root ≠ decl.id)) else none

/-- The supertypes of a class type, one step up: the superclass, the interfaces, and last the root
where it is implicit. -/
def supertypes (reg : Registry) (ct : ClassType) : List ClassType :=
  match reg.class? ct.id with
  | none => []
  | some decl =>
    decl.clauses.map (reg.bindingOf ct).applyToClass ++
      (reg.implicitRoot? decl).toList.map .simple

/-- The order in which a walk looks at what it has met. -/
inductive Order where
  /-- What was met last comes first. -/
  | depthFirst
  /-- What was met first comes first. -/
  | breadthFirst
  deriving DecidableEq, Repr

/-- Adds class types that have just been met to those that are still to be looked at. -/
def Order.schedule : Order → (met pending : List ClassType) → List ClassType
  | depthFirst, met, pending => met ++ pending
  | breadthFirst, met, pending => pending ++ met

/-- The class types that a walk looks at, starting from those that are pending. Classes in `seen`
are passed over, and so is a class that is met again. -/
def walk (reg : Registry) (order : Order) (seen : List ClassId) : List ClassType → List ClassType
  | [] => []
  | ct :: pending =>
    if _hs : ct.id ∈ seen then walk reg order seen pending
    else match _h : reg.class? ct.id with
      | none => ct :: walk reg order (ct.id :: seen) pending
      | some _ =>
        ct :: walk reg order (ct.id :: seen) (order.schedule (reg.supertypes ct) pending)
termination_by pending => (reg.classes.unseen seen, pending.length)
decreasing_by
  · exact Prod.Lex.right _ (Nat.lt_succ_self _)
  · rcases Nat.lt_or_eq_of_le (reg.classes.unseen_cons_le ct.id seen) with hlt | heq
    · exact Prod.Lex.left _ _ hlt
    · rw [heq]
      exact Prod.Lex.right _ (Nat.lt_succ_self _)
  · exact Prod.Lex.left _ _ (ClassTable.unseen_cons_lt _h _hs)

/-- The types that a class type has, itself included, each class once. -/
def ancestors (reg : Registry) (order : Order) (ct : ClassType) : List ClassType :=
  reg.walk order [] [ct]

/-- The methods of one name that the class of a class type itself declares, under the arguments of
that class type. -/
def ownOverloads (reg : Registry) (name : String) (ct : ClassType) : List (Signature Ty) :=
  match reg.class? ct.id with
  | none => []
  | some decl =>
    (decl.overloads name).map fun m => (reg.bindingOf ct).applyToSignature m.signature

/-- The methods of one name of a class type, its own and the inherited ones, in the order of a
depth-first walk. -/
def overloadsOf (reg : Registry) (name : String) (ct : ClassType) : List (Signature Ty) :=
  (reg.ancestors .depthFirst ct).flatMap (reg.ownOverloads name)

/-- How many steps up the hierarchy `mayDeclare` looks. -/
def maxPrecheckDepth : Nat := 64

/-- Whether a class or one of its supertypes within `depth` steps declares a method of a given
name. Beyond that distance it is taken for possible. -/
def mayDeclare (reg : Registry) (name : String) (depth : Nat) (id : ClassId) : Bool :=
  match reg.class? id with
  | none => false
  | some decl =>
    decl.declares name ||
      match depth with
      | 0 => true
      | depth + 1 =>
        decl.clauses.any (fun ct => mayDeclare reg name depth ct.id) ||
          (reg.implicitRoot? decl).any (mayDeclare reg name depth)

/-- The methods of one name of a class, its own and the inherited ones, in terms of the type
parameters of the class. A class of which no supertype near by declares the name is not walked. -/
def overloads (reg : Registry) (id : ClassId) (name : String) : List (Signature Ty) :=
  match reg.class? id with
  | none => []
  | some decl =>
    if reg.mayDeclare name maxPrecheckDepth id then reg.overloadsOf name decl.ownType else []

end Registry

end MethodOperators
