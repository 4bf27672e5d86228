import MethodOperators.Registry.Store

/-!
# Registries

A registry knows the classes of a program, the type parameters that were allocated for them, and
the classes that play a special part: the root of the hierarchy, which is a supertype of every
reference type, and the boxes, which are the classes that stand for primitive types. Work on a
registry is called off through the flag that the registry watches.

A registry has the tables of a `Store` in which every class is stored under its own identity, and it
changes by the calls on them. Declarations may come in any order, and may mention classes that are
never declared.
-/

namespace MethodOperators

/-- The tables of a `Store`, with every class under its own identity. -/
structure Registry where
  classes : ClassTable
  typeParams : Array TypeParam
  boxes : Dictionary Primitive ClassId
  unboxes : Dictionary ClassId Primitive
  root : Option ClassId
  flag : Flag

namespace Registry

/-- A registry without classes that watches a flag. -/
def empty (flag : Flag) : Registry where
  classes := .empty
  typeParams := #[]
  boxes := .empty
  unboxes := .empty
  root := none
  flag := flag

/-! ### Looking up -/

/-- The declaration of a class. -/
def class? (reg : Registry) (id : ClassId) : Option ClassDecl := reg.classes.find? id

/-- The declaration of the class of a given name. -/
def classNamed? (reg : Registry) (name : String) : Option ClassDecl := reg.class? (ClassId.ofName name)

/-- Whether a class is declared. -/
def contains (reg : Registry) (id : ClassId) : Bool := reg.classes.contains id

/-- Number of declared classes. -/
def size (reg : Registry) : Nat := reg.classes.size

/-- Whether no class is declared. -/
def isEmpty (reg : Registry) : Bool := reg.classes.isEmpty

/-- What was declared of a type parameter. -/
def typeParam? (reg : Registry) (v : TypeVar) : Option TypeParam := reg.typeParams[v.index.toNat]?

/-- The upper bound of a type parameter. A parameter that was never allocated has none. -/
def bound? (reg : Registry) (v : TypeVar) : Option Ty := (reg.typeParam? v).bind TypeParam.bound

/-- The class that stands for a primitive type. -/
def box? (reg : Registry) (kind : Primitive) : Option ClassId := reg.boxes.find? kind

/-- The primitive type that a class stands for. -/
def unbox? (reg : Registry) (id : ClassId) : Option Primitive := reg.unboxes.find? id

/-- Whether a class is the root of the hierarchy. -/
def isRoot (reg : Registry) (id : ClassId) : Bool := decide (reg.root = some id)

/-! ### Calls -/

/-- The tables of a registry. -/
def store (reg : Registry) : Store where
  classes := reg.classes.toDictionary
  typeParams := reg.typeParams
  boxes := reg.boxes
  unboxes := reg.unboxes
  root := reg.root
  flag := reg.flag

/-- The registry of some tables. -/
def ofStore (s : Store) (h : ClassTable.Keyed s.classes) : Registry where
  classes := ⟨s.classes, h⟩
  typeParams := s.typeParams
  boxes := s.boxes
  unboxes := s.unboxes
  root := s.root
  flag := s.flag

/-- The answer to a call, with the registry that the call leaves. -/
def perform (reg : Registry) (e : Edit) : Except DeclarationError e.Result × Registry :=
  ((reg.store.perform e).1,
    ofStore (reg.store.perform e).2 (Store.keyed_perform reg.classes.keyed e))

/-- The registry that a call leaves. -/
def edit (reg : Registry) (e : Edit) : Registry := (reg.perform e).2

/-- The registry that a call leaves, unless the call is refused. -/
def attempt (reg : Registry) (e : Edit) : Except DeclarationError Registry :=
  match reg.perform e with
  | (.ok _, reg') => .ok reg'
  | (.error err, _) => .error err

theorem store_inj {reg reg' : Registry} : reg.store = reg'.store ↔ reg = reg' := by
  constructor
  · intro h
    obtain ⟨⟨classes, _⟩, _⟩ := reg
    obtain ⟨⟨classes', _⟩, _⟩ := reg'
    simp only [store, Store.mk.injEq] at h
    obtain ⟨rfl, rfl, rfl, rfl, rfl, rfl⟩ := h
    rfl
  · rintro rfl
    rfl

theorem attempt_eq_ok_iff {reg reg' : Registry} {e : Edit} :
    reg.attempt e = .ok reg' ↔ ∃ result, reg.store.perform e = (.ok result, reg'.store) := by
  rw [attempt, perform]
  constructor
  · intro h
    split at h
    · rename_i result _ heq
      obtain ⟨hanswer, rfl⟩ := Prod.mk.inj heq
      obtain rfl := Except.ok.inj h
      exact ⟨result, Prod.ext hanswer rfl⟩
    · cases h
  · rintro ⟨result, hperform⟩
    have hstore : ofStore (reg.store.perform e).2 (Store.keyed_perform reg.classes.keyed e) = reg' :=
      store_inj.1 (congrArg Prod.snd hperform)
    rw [hstore, congrArg Prod.fst hperform]

/-- Allocates a type parameter. -/
def allocateParam (reg : Registry) (name : String) (bound : Option Ty) : TypeVar × Registry :=
  (((Store.allocateParam name bound).run reg.store).1, reg.edit (.param name bound))

/-- Declares a class. -/
def declareClass (reg : Registry) (decl : ClassDecl) : Except DeclarationError Registry :=
  reg.attempt (.declare decl)

/-- A class is declared when it is new and all its type parameters have been allocated. -/
theorem declareClass_eq_ok_iff {reg reg' : Registry} {decl : ClassDecl} :
    reg.declareClass decl = .ok reg' ↔
      reg.contains decl.id = false ∧ (∀ v ∈ decl.typeParams, (reg.typeParam? v).isSome = true) ∧
        reg' = { reg with classes := reg.classes.declare decl } := by
  have hstore (hnew : reg.contains decl.id = false) :
      Registry.store { reg with classes := reg.classes.declare decl } =
        { reg.store with classes := reg.store.classes.insert decl.id decl } := by
    have hdecl : (reg.classes.declare decl).toDictionary = reg.store.classes.insert decl.id decl :=
      if_neg (Bool.not_eq_true _ ▸ hnew)
    rw [← hdecl]
    rfl
  constructor
  · intro h
    obtain ⟨_, hperform⟩ := attempt_eq_ok_iff.1 h
    obtain ⟨⟨hnew, hparams⟩, -, hreg'⟩ := Store.perform_declare_eq_ok_iff.1 hperform
    exact ⟨hnew, hparams, store_inj.1 (hreg'.trans (hstore hnew).symm)⟩
  · rintro ⟨hnew, hparams, rfl⟩
    exact attempt_eq_ok_iff.2 ⟨decl.id,
      Store.perform_declare_eq_ok_iff.2 ⟨⟨hnew, hparams⟩, rfl, hstore hnew⟩⟩

/-- Makes a declared class the root of the hierarchy. -/
def withRoot (reg : Registry) (id : ClassId) : Except DeclarationError Registry :=
  reg.attempt (.root id)

/-- Lets a declared class stand for a primitive type. -/
def withBox (reg : Registry) (kind : Primitive) (id : ClassId) :
    Except DeclarationError Registry :=
  reg.attempt (.box kind id)

/-- Declares the built-in classes that are not declared yet, and lets them play their parts. -/
def addBuiltins (reg : Registry) : Registry := reg.edit .builtins

/-- Lets the registry watch another flag. -/
def withFlag (reg : Registry) (flag : Flag) : Registry := reg.edit (.watch flag)

/-- A registry of the built-in classes that watches a flag. -/
def builtin (flag : Flag) : Registry := (empty flag).addBuiltins

/-! ### Using declarations -/

/-- The class of a given name applied to arguments: as many as it has parameters, or none for a raw
use. -/
def instantiate (reg : Registry) (name : String) (args : List Ty) : Except DeclarationError Ty :=
  match reg.classNamed? name with
  | none => .error (.unknownClass name)
  | some decl =>
    if args.isEmpty || args.length == decl.typeParams.length then .ok (.nominal decl.id args)
    else .error (.wrongArgumentCount decl.name decl.typeParams.length args.length)

/-- The name of a class, or its identity if it is not declared. -/
def renderClass (reg : Registry) (id : ClassId) : String :=
  match reg.class? id with
  | some decl => decl.name
  | none => id.describe

/-- The name of a type parameter, or its number if it was never allocated. -/
def renderVar (reg : Registry) (v : TypeVar) : String :=
  match reg.typeParam? v with
  | some param => param.name
  | none => "?" ++ v.index.toNat.repr

mutual

/-- A type as it is written in a source text. -/
def render (reg : Registry) : Ty → String
  | .primitive kind => kind.name
  | .null => "null"
  | .var v => reg.renderVar v
  | .array element => reg.render element ++ "[]"
  | .nominal id [] => reg.renderClass id
  | .nominal id (arg :: args) =>
    reg.renderClass id ++ "<" ++ ", ".intercalate (reg.renderAll (arg :: args)) ++ ">"

/-- Each type of a list as it is written in a source text. -/
def renderAll (reg : Registry) : List Ty → List String
  | [] => []
  | t :: ts => reg.render t :: reg.renderAll ts

end

end Registry

end MethodOperators
