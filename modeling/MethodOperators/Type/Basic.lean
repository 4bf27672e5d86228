import MethodOperators.Type.Primitive
import MethodOperators.XxHash64

/-!
# Types

The types of a language with classes, generics and arrays. A class is named by an identifier
computed from its name alone, so that a type can mention a class that is not declared yet. A class
type with no arguments is either the type of a class without parameters or a *raw* use of a generic
one; the two look alike.
-/

namespace MethodOperators

/-- The identity of a class. -/
structure ClassId where
  /-- The hash of the class's name. -/
  bits : UInt64
  deriving DecidableEq, Repr

namespace ClassId

/-- The seed under which class names are hashed. -/
def seed : UInt64 := 0x2fac10b63a6cc57c

/-- The identity of the class of a given name. -/
def ofName (name : String) : ClassId := ⟨XxHash64.digest seed name.toUTF8.toList⟩

/-- Sixteen hexadecimal digits in lower case. -/
def render (id : ClassId) : String :=
  let digits := Nat.toDigits 16 id.bits.toNat
  String.ofList (List.replicate (16 - digits.length) '0' ++ digits)

/-- The digits together with what they are, as in `ClassId(0x00000000000000ff)`. -/
def describe (id : ClassId) : String := "ClassId(0x" ++ id.render ++ ")"

end ClassId

/-- The identity of a type parameter. -/
structure TypeVar where
  /-- The number of parameters that were allocated before it. -/
  index : UInt32
  deriving DecidableEq, Repr

/-- The number together with what it is, as in `TypeVarId(7)`. -/
def TypeVar.describe (v : TypeVar) : String := "TypeVarId(" ++ v.index.toNat.repr ++ ")"

/-- Types. -/
inductive Ty where
  | primitive (kind : Primitive)
  /-- A class with type arguments. -/
  | nominal (id : ClassId) (args : List Ty)
  | var (v : TypeVar)
  | array (element : Ty)
  /-- The type of the null reference. -/
  | null
  deriving Inhabited

mutual

/-- Equality of types is decided along their structure. -/
def Ty.decEq : (s t : Ty) → Decidable (s = t)
  | .primitive k, t => match t with
    | .primitive l => decidable_of_iff (k = l) (by simp)
    | .nominal .. | .var _ | .array _ | .null => isFalse nofun
  | .nominal i as, t => match t with
    | .nominal j bs =>
      have := Ty.decEqList as bs
      decidable_of_iff (i = j ∧ as = bs) (by simp)
    | .primitive _ | .var _ | .array _ | .null => isFalse nofun
  | .var v, t => match t with
    | .var w => decidable_of_iff (v = w) (by simp)
    | .primitive _ | .nominal .. | .array _ | .null => isFalse nofun
  | .array s, t => match t with
    | .array t =>
      have := Ty.decEq s t
      decidable_of_iff (s = t) (by simp)
    | .primitive _ | .nominal .. | .var _ | .null => isFalse nofun
  | .null, t => match t with
    | .null => isTrue rfl
    | .primitive _ | .nominal .. | .var _ | .array _ => isFalse nofun

/-- Equality of lists of types is decided element by element. -/
def Ty.decEqList : (ss ts : List Ty) → Decidable (ss = ts)
  | [], [] => isTrue rfl
  | [], _ :: _ => isFalse nofun
  | _ :: _, [] => isFalse nofun
  | s :: ss, t :: ts =>
    have := Ty.decEq s t
    have := Ty.decEqList ss ts
    decidable_of_iff (s = t ∧ ss = ts) (by simp)

end

instance : DecidableEq Ty := Ty.decEq

/-- A class together with type arguments. -/
structure ClassType where
  id : ClassId
  /-- Its type arguments, none for a raw use. -/
  args : List Ty
  deriving DecidableEq

/-- A class without type arguments. -/
def ClassType.simple (id : ClassId) : ClassType := ⟨id, []⟩

/-- A class type as a type. -/
def ClassType.toTy (ct : ClassType) : Ty := .nominal ct.id ct.args

namespace Ty

/-- A class without type arguments. -/
def simple (id : ClassId) : Ty := .nominal id []

/-- The class of a given name, with type arguments. -/
def named (name : String) (args : List Ty) : Ty := .nominal (ClassId.ofName name) args

/-- The type of expressions without a value. -/
def void : Ty := .primitive .void

/-- Whether values of the type are references, so that they may be null. -/
def isReference : Ty → Bool
  | .primitive _ => false
  | .nominal .. | .var _ | .array _ | .null => true

/-- The class and its arguments, for a class type. -/
def asClass? : Ty → Option ClassType
  | .nominal id args => some ⟨id, args⟩
  | .primitive _ | .var _ | .array _ | .null => none

theorem eq_toTy_of_asClass? {t : Ty} {ct : ClassType} (h : t.asClass? = some ct) : t = ct.toTy := by
  cases t with
  | nominal id args =>
    obtain rfl := Option.some.inj h
    rfl
  | primitive | var | array | null => cases h

/-- The kind of value, for a built-in type. -/
def asPrimitive? : Ty → Option Primitive
  | .primitive kind => some kind
  | .nominal .. | .var _ | .array _ | .null => none

end Ty

end MethodOperators
