import MethodOperators.Cancellation
import MethodOperators.Class.Table
import MethodOperators.Registry.Error

/-!
# The tables of a registry

What a registry keeps, and the calls that change it. A call makes its checks and its writes one
after the other. It answers with a result or with a refusal, and in both cases leaves the tables in
the state in which its writes have put them.
-/

namespace MethodOperators

/-! ### Built-in classes -/

namespace Registry

/-- The name of the built-in root class. -/
def objectName : String := "Object"

/-- The name of the built-in class of texts. -/
def stringName : String := "String"

/-- The names of the built-in boxes with the primitive types they stand for. -/
def boxNames : List (Primitive × String) :=
  [(.boolean, "Boolean"), (.byte, "Byte"), (.short, "Short"), (.char, "Character"),
    (.int, "Integer"), (.long, "Long"), (.float, "Float"), (.double, "Double")]

/-- The built-in boxes with the primitive types they stand for. -/
def builtinBoxes : List (Primitive × ClassId) :=
  boxNames.map fun (kind, name) => (kind, ClassId.ofName name)

/-- A built-in class other than the root. It extends the root. -/
def builtinDecl (name : String) : ClassDecl :=
  { ClassDecl.ofName name with superclass := some (.simple (ClassId.ofName objectName)) }

/-- The names of the built-in classes other than the root. -/
def builtinNames : List String := stringName :: boxNames.map Prod.snd

/-- The declarations of the built-in classes. -/
def builtinDecls : List ClassDecl := ClassDecl.ofName objectName :: builtinNames.map builtinDecl

end Registry

/-! ### Tables -/

/-- The tables of a registry. -/
@[ext]
structure Store where
  /-- The declarations, each under the identity that it was stored for. -/
  classes : Dictionary ClassId ClassDecl
  /-- The type parameters, each at the position that its identity gives. -/
  typeParams : Array TypeParam
  /-- The class that stands for a primitive type. -/
  boxes : Dictionary Primitive ClassId
  /-- The primitive type that a class stands for. -/
  unboxes : Dictionary ClassId Primitive
  root : Option ClassId
  /-- The flag that calls off work on the registry. -/
  flag : Flag

namespace Store

open Registry (objectName builtinNames builtinDecl builtinDecls builtinBoxes)

/-- Tables without classes, with a flag to watch. -/
def empty (flag : Flag) : Store where
  classes := .empty
  typeParams := #[]
  boxes := .empty
  unboxes := .empty
  root := none
  flag := flag

/-- What was declared of a type parameter. -/
def typeParam? (s : Store) (v : TypeVar) : Option TypeParam := s.typeParams[v.index.toNat]?

/-! ### Calls -/

/-- A call that may be refused. -/
abbrev Call (α : Type) := ExceptT DeclarationError (StateM Store) α

/-- The answer to a call, with the tables that the call leaves. -/
def Call.on {α : Type} (call : Call α) (s : Store) : Except DeclarationError α × Store :=
  (call.run.run s).run

namespace Call

variable {α β : Type}

/-- What follows a call is done with the tables that it leaves, unless it is refused. -/
@[simp]
theorem on_bind (call : Call α) (next : α → Call β) (s : Store) :
    (call >>= next).on s =
      match call.on s with
      | (.ok a, s') => (next a).on s'
      | (.error e, s') => (.error e, s') := by
  show (match call.on s with | (answer, s') => (ExceptT.bindCont next answer).run s') = _
  rcases call.on s with ⟨e | a, s'⟩ <;> rfl

@[simp]
theorem on_map (f : α → β) (call : Call α) (s : Store) :
    (f <$> call).on s = ((call.on s).1.map f, (call.on s).2) := by
  rw [map_eq_pure_bind, on_bind]
  rcases call.on s with ⟨e | a, s'⟩ <;> rfl

@[simp]
theorem on_pure (a : α) (s : Store) : (pure a : Call α).on s = (.ok a, s) := rfl

@[simp]
theorem on_throw (e : DeclarationError) (s : Store) :
    (throw e : Call α).on s = (.error e, s) := rfl

@[simp]
theorem on_get (s : Store) : (get : Call Store).on s = (.ok s, s) := rfl

@[simp]
theorem on_modify (f : Store → Store) (s : Store) :
    (modify f : Call PUnit).on s = (.ok (), f s) := rfl

end Call

/-- Allocates a type parameter. -/
def allocateParam (name : String) (bound : Option Ty) : StateM Store TypeVar := do
  let v : TypeVar := ⟨UInt32.ofNat (← get).typeParams.size⟩
  modify fun s => { s with typeParams := s.typeParams.push ⟨name, bound⟩ }
  return v

/-- Declares a class. It must be new, and its type parameters must have been allocated. -/
def declareClass (decl : ClassDecl) : Call ClassId := do
  if (← get).classes.contains decl.id then
    throw (.duplicateClass decl.name)
  let size := (← get).typeParams.size
  if let some v := decl.typeParams.find? (fun v => decide (size ≤ v.index.toNat)) then
    throw (.unknownTypeParam decl.name v)
  modify fun s => { s with classes := s.classes.insert decl.id decl }
  return decl.id

/-- Makes a declared class the root of the hierarchy. -/
def setRoot (id : ClassId) : Call Unit := do
  if !(← get).classes.contains id then
    throw (.undeclaredSpecial id)
  modify fun s => { s with root := some id }

/-- Lets a declared class stand for a primitive type. The class that stood for it before no longer
does. -/
def setBox (kind : Primitive) (id : ClassId) : Call Unit := do
  if !(← get).classes.contains id then
    throw (.undeclaredSpecial id)
  let previous := (← get).boxes.find? kind
  modify fun s => { s with boxes := s.boxes.insert kind id }
  if let some previous := previous then
    modify fun s => { s with unboxes := s.unboxes.erase previous }
  modify fun s => { s with unboxes := s.unboxes.insert id kind }

/-- Stores a declaration for a class unless the class has one. -/
def addMissing (id : ClassId) (decl : ClassDecl) : StateM Store Unit :=
  modify fun s => { s with classes := s.classes.insertIfNew id decl }

/-- Lets a class stand for a primitive type, whatever stood for it before. -/
def pairBox (kind : Primitive) (id : ClassId) : StateM Store Unit := do
  modify fun s => { s with boxes := s.boxes.insert kind id }
  modify fun s => { s with unboxes := s.unboxes.insert id kind }

/-- Declares the built-in classes that are not declared yet, and lets them play their parts. -/
def addBuiltins : StateM Store Unit := do
  let object := ClassId.ofName objectName
  addMissing object (ClassDecl.ofName objectName)
  modify fun s => { s with root := some object }
  builtinNames.forM fun name => addMissing (ClassId.ofName name) (builtinDecl name)
  builtinBoxes.forM fun (kind, id) => pairBox kind id

/-- Lets the registry watch another flag. -/
def setFlag (flag : Flag) : StateM Store Unit := modify fun s => { s with flag := flag }

/-- Tables of the built-in classes, with a flag to watch. -/
def builtin (flag : Flag) : Store := (addBuiltins.run (empty flag)).2

end Store

/-- A call that changes a registry, with its arguments. -/
inductive Registry.Edit where
  | param (name : String) (bound : Option Ty)
  | declare (decl : ClassDecl)
  | root (id : ClassId)
  | box (kind : Primitive) (id : ClassId)
  | builtins
  | watch (flag : Flag)

namespace Registry.Edit

/-- What a call answers with if it is not refused. -/
abbrev Result : Edit → Type
  | .param .. => TypeVar
  | .declare _ => ClassId
  | .root _ | .box .. | .builtins | .watch _ => Unit

/-- The checks and writes of a call. -/
def call : (e : Edit) → Store.Call e.Result
  | .param name bound => ExceptT.lift (Store.allocateParam name bound)
  | .declare decl => Store.declareClass decl
  | .root id => Store.setRoot id
  | .box kind id => Store.setBox kind id
  | .builtins => ExceptT.lift Store.addBuiltins
  | .watch flag => ExceptT.lift (Store.setFlag flag)

end Registry.Edit

namespace Store

open Registry (objectName builtinNames builtinDecl builtinDecls builtinBoxes Edit)

/-- The answer to a call, with the tables that the call leaves. -/
def perform (s : Store) (e : Edit) : Except DeclarationError e.Result × Store := e.call.on s

/-- The tables that some calls leave, one after the other. -/
def build (s : Store) (edits : List Edit) : Store :=
  edits.foldl (fun s e => (s.perform e).2) s

theorem build_concat (s : Store) (edits : List Edit) (e : Edit) :
    s.build (edits ++ [e]) = ((s.build edits).perform e).2 := by
  rw [build, List.foldl_append]
  rfl

/-! ### What each call does -/

theorem perform_declare (s : Store) (decl : ClassDecl) :
    s.perform (.declare decl) =
      if s.classes.contains decl.id then (.error (.duplicateClass decl.name), s)
      else match decl.typeParams.find? (fun v => decide (s.typeParams.size ≤ v.index.toNat)) with
        | some v => (.error (.unknownTypeParam decl.name v), s)
        | none => (.ok decl.id, { s with classes := s.classes.insert decl.id decl }) := by
  show (declareClass decl).on s = _
  by_cases hid : s.classes.contains decl.id
  · simp [declareClass, hid]
  · cases hparam : decl.typeParams.find? fun v => decide (s.typeParams.size ≤ v.index.toNat) with
    | some v => simp [declareClass, hid, hparam]
    | none => simp [declareClass, hid, hparam, Except.map]

/-- A class is declared when it is new and all its type parameters have been allocated. -/
theorem perform_declare_eq_ok_iff {s s' : Store} {decl : ClassDecl}
    {result : (Edit.declare decl).Result} :
    s.perform (.declare decl) = (.ok result, s') ↔
      (s.classes.contains decl.id = false ∧
        ∀ v ∈ decl.typeParams, (s.typeParam? v).isSome = true) ∧
      result = decl.id ∧ s' = { s with classes := s.classes.insert decl.id decl } := by
  have hparams : decl.typeParams.find? (fun v => decide (s.typeParams.size ≤ v.index.toNat)) =
      none ↔ ∀ v ∈ decl.typeParams, (s.typeParam? v).isSome = true := by
    simp [List.find?_eq_none, typeParam?]
  rw [← hparams, perform_declare]
  cases hid : s.classes.contains decl.id with
  | true => simp
  | false =>
    cases hfind : decl.typeParams.find? fun v => decide (s.typeParams.size ≤ v.index.toNat) with
    | some v => simp
    | none => simp [eq_comm]

theorem perform_root (s : Store) (id : ClassId) :
    s.perform (.root id) =
      if s.classes.contains id then (.ok (), { s with root := some id })
      else (.error (.undeclaredSpecial id), s) := by
  show (setRoot id).on s = _
  by_cases hid : s.classes.contains id <;> simp [setRoot, hid]

theorem perform_box (s : Store) (kind : Primitive) (id : ClassId) :
    s.perform (.box kind id) =
      if s.classes.contains id then
        (.ok (), { s with
          boxes := s.boxes.insert kind id
          unboxes := ((s.boxes.find? kind).elim s.unboxes s.unboxes.erase).insert id kind })
      else (.error (.undeclaredSpecial id), s) := by
  show (setBox kind id).on s = _
  by_cases hid : s.classes.contains id
  · cases hbox : s.boxes.find? kind <;> simp [setBox, hid, hbox]
  · simp [setBox, hid]

theorem run_seq (first second : StateM Store Unit) (s : Store) :
    ((first >>= fun _ => second).run s).2 = (second.run (first.run s).2).2 := rfl

theorem run_modify (f : Store → Store) (s : Store) :
    ((modify f : StateM Store Unit).run s).2 = f s := rfl

theorem run_forM {α : Type} (xs : List α) (body : α → StateM Store Unit) (s : Store) :
    ((xs.forM body).run s).2 = xs.foldl (fun s a => ((body a).run s).2) s := by
  induction xs generalizing s with
  | nil => rfl
  | cons x xs ih => exact ih ((body x).run s).2

/-- A loop that stores declarations. -/
theorem run_forM_addMissing (names : List String) (s : Store) :
    ((names.forM fun name => addMissing (ClassId.ofName name) (builtinDecl name)).run s).2 =
      { s with classes :=
          (names.map builtinDecl).foldl (fun classes d => classes.insertIfNew d.id d) s.classes } := by
  rw [run_forM]
  induction names generalizing s with
  | nil => rfl
  | cons name names ih => exact ih _

/-- A loop that pairs primitive types with classes. -/
theorem run_forM_pairBox (pairs : List (Primitive × ClassId)) (s : Store) :
    ((pairs.forM fun e => pairBox e.1 e.2).run s).2 = { s with
      boxes := pairs.foldl (fun boxes e => boxes.insert e.1 e.2) s.boxes
      unboxes := pairs.foldl (fun unboxes e => unboxes.insert e.2 e.1) s.unboxes } := by
  rw [run_forM]
  induction pairs generalizing s with
  | nil => rfl
  | cons e pairs ih => exact ih _

theorem perform_builtins (s : Store) :
    s.perform .builtins =
      (.ok (), { s with
        classes := builtinDecls.foldl (fun classes d => classes.insertIfNew d.id d) s.classes
        root := some (ClassId.ofName objectName)
        boxes := builtinBoxes.foldl (fun boxes e => boxes.insert e.1 e.2) s.boxes
        unboxes := builtinBoxes.foldl (fun unboxes e => unboxes.insert e.2 e.1) s.unboxes }) := by
  have hrun : s.perform .builtins = (.ok (), (addBuiltins.run s).2) := rfl
  rw [hrun, addBuiltins, run_seq, run_seq, run_seq, run_modify, addMissing, run_modify,
    run_forM_addMissing, run_forM_pairBox, builtinDecls, List.foldl_cons, ClassDecl.id_ofName]

/-! ### Keys -/

/-- A call stores a class under its own identity only. -/
theorem keyed_perform {s : Store} (h : ClassTable.Keyed s.classes) (e : Edit) :
    ClassTable.Keyed (s.perform e).2.classes := by
  cases e with
  | param name bound => exact h
  | declare decl =>
    rw [perform_declare]
    split
    · exact h
    · split
      · exact h
      · exact h.insert decl
  | root id =>
    rw [perform_root]
    split <;> exact h
  | box kind id =>
    rw [perform_box]
    split <;> exact h
  | builtins =>
    simp only [perform_builtins]
    exact h.foldl_insertIfNew builtinDecls
  | watch flag => exact h

end Store

end MethodOperators
