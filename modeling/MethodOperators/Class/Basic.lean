import MethodOperators.Type.Basic
import MethodOperators.Type.Signature

/-!
# Class declarations

What a class declares: its type parameters, the types it extends and implements, written in terms
of those parameters, and its methods in order. Interfaces are classes with a modifier.
-/

namespace MethodOperators

/-- Modifiers of a class. -/
structure ClassModifiers where
  /-- The declaration is an interface. -/
  interface : Bool
  deriving DecidableEq, Repr

namespace ClassModifiers

/-- Modifiers from a byte of which only the lowest bit is used. -/
def ofBits (bits : UInt8) : ClassModifiers := ⟨bits &&& 1 != 0⟩

/-- The byte with one bit for each modifier. -/
def toBits (m : ClassModifiers) : UInt8 := if m.interface then 1 else 0

end ClassModifiers

/-- Modifiers of a method. Looking up a method does not depend on them. -/
structure MethodModifiers where
  /-- The method belongs to the class and not to its instances. -/
  static : Bool
  deriving DecidableEq, Repr

namespace MethodModifiers

/-- Modifiers from a byte of which only the lowest bit is used. -/
def ofBits (bits : UInt8) : MethodModifiers := ⟨bits &&& 1 != 0⟩

/-- The byte with one bit for each modifier. -/
def toBits (m : MethodModifiers) : UInt8 := if m.static then 1 else 0

end MethodModifiers

/-- A declared type parameter. -/
structure TypeParam where
  name : String
  /-- Its upper bound, if one was declared. -/
  bound : Option Ty
  deriving DecidableEq

/-- A declared method. -/
structure MethodDecl where
  /-- The name under which it is called. -/
  name : String
  /-- Its types, which may mention the parameters of the declaring class. -/
  signature : Signature Ty
  modifiers : MethodModifiers := ⟨false⟩
  deriving DecidableEq

/-- A declared class or interface. -/
structure ClassDecl where
  id : ClassId
  name : String
  modifiers : ClassModifiers := ⟨false⟩
  /-- Its type parameters in order. -/
  typeParams : List TypeVar := []
  /-- The class it extends, if it says so. -/
  superclass : Option ClassType := none
  /-- The interfaces it implements, in order. -/
  interfaces : List ClassType := []
  /-- The methods it declares, in order. -/
  methods : List MethodDecl := []
  deriving DecidableEq

namespace ClassDecl

/-- A class with a name and nothing else. -/
def ofName (name : String) : ClassDecl where
  id := ClassId.ofName name
  name := name

@[simp]
theorem id_ofName (name : String) : (ofName name).id = ClassId.ofName name := rfl

/-- Whether the class has type parameters. -/
def isGeneric (d : ClassDecl) : Bool := !d.typeParams.isEmpty

/-- The class applied to its own parameters. -/
def ownType (d : ClassDecl) : ClassType := ⟨d.id, d.typeParams.map .var⟩

/-- The types that the class names as its supertypes: the superclass, then the interfaces. -/
def clauses (d : ClassDecl) : List ClassType := d.superclass.toList ++ d.interfaces

/-- The methods of a given name that the class itself declares, in order. -/
def overloads (d : ClassDecl) (name : String) : List MethodDecl :=
  d.methods.filter (fun m => m.name == name)

/-- Whether the class itself declares a method of a given name. -/
def declares (d : ClassDecl) (name : String) : Bool := d.methods.any (fun m => m.name == name)

end ClassDecl

end MethodOperators
