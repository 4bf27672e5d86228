import MethodOperators.Proofs.Substitution
import MethodOperators.Proofs.Walk
import Mathlib.Data.List.Nodup

/-! The methods of a class, listed class by class. Looking for the name beforehand only saves work.
-/

namespace MethodOperators

open Relation (ReflTransGen)

namespace Registry

variable {reg : Registry}

/-! ### A class applied to its own parameters -/

theorem class?_ownType {id : ClassId} {decl : ClassDecl} (h : reg.class? id = some decl) :
    reg.class? decl.ownType.id = some decl := by
  rw [ClassDecl.ownType, id_of_class? h, h]

/-- A class applied to its own parameters leaves every type as it is. -/
theorem bindingOf_ownType_apply {id : ClassId} {decl : ClassDecl} (h : reg.class? id = some decl) :
    (reg.bindingOf decl.ownType).apply = fun t => t := by
  funext t
  simp only [bindingOf, class?_ownType h]
  split
  · rename_i hempty
    have hparams : decl.typeParams = [] := by simpa [ClassDecl.ownType] using hempty
    rw [hparams]
    rfl
  · exact Substitution.apply_ofArgs_vars decl.typeParams t

theorem ownOverloads_ownType {id : ClassId} {decl : ClassDecl} (h : reg.class? id = some decl)
    (name : String) :
    reg.ownOverloads name decl.ownType = (decl.overloads name).map MethodDecl.signature := by
  simp only [ownOverloads, class?_ownType h]
  refine List.map_congr_left fun m _ => ?_
  simp [Substitution.applyToSignature, Signature.map, bindingOf_ownType_apply h]

/-! ### Looking for a name beforehand -/

theorem ownOverloads_eq_nil {name : String} {depth : Nat} {ct : ClassType}
    (h : reg.mayDeclare name depth ct.id = false) : reg.ownOverloads name ct = [] := by
  cases hdecl : reg.class? ct.id with
  | none => simp only [ownOverloads, hdecl]
  | some decl =>
    rw [mayDeclare.eq_def, hdecl, Bool.or_eq_false_iff] at h
    have hnone : decl.overloads name = [] := by
      simpa [ClassDecl.declares, ClassDecl.overloads, List.filter_eq_nil_iff] using h.1
    simp only [ownOverloads, hdecl, hnone, List.map_nil]

/-- A negative answer carries over to all classes directly above, for a smaller distance. -/
theorem exists_mayDeclare_eq_false {name : String} {depth : Nat} {id sup : ClassId}
    (h : reg.mayDeclare name depth id = false) (hsup : reg.Extends id sup) :
    ∃ depth', reg.mayDeclare name depth' sup = false := by
  obtain ⟨decl, hdecl⟩ := hsup.declared
  rw [mayDeclare.eq_def, hdecl, Bool.or_eq_false_iff] at h
  cases depth with
  | zero => exact absurd h.2 (by simp)
  | succ depth =>
    obtain ⟨hclauses, hroot⟩ := Bool.or_eq_false_iff.1 h.2
    refine ⟨depth, ?_⟩
    rcases (extends_iff_of_declared hdecl).1 hsup with ⟨clause, hclause, rfl⟩ | himplicit
    · simpa using List.any_eq_false.1 hclauses clause hclause
    · simpa [himplicit] using hroot

theorem exists_mayDeclare_eq_false_of_reaches {name : String} {depth : Nat} {id sup : ClassId}
    (h : reg.mayDeclare name depth id = false) (hsup : ReflTransGen reg.Extends id sup) :
    ∃ depth', reg.mayDeclare name depth' sup = false := by
  induction hsup with
  | refl => exact ⟨depth, h⟩
  | tail _ hextends ih =>
    obtain ⟨depth', h'⟩ := ih
    exact exists_mayDeclare_eq_false h' hextends

/-- Looking for the name beforehand changes no answer. -/
theorem overloads_eq_overloadsOf {id : ClassId} {decl : ClassDecl} (h : reg.class? id = some decl)
    (name : String) : reg.overloads id name = reg.overloadsOf name decl.ownType := by
  simp only [overloads, h]
  split
  · rfl
  · -- Every class that the walk would have met turns out not to declare the name.
    rename_i hmay
    refine (List.flatMap_eq_nil_iff.2 fun ct hct => ?_).symm
    have hreach := reaches_id (reaches_of_mem_ancestors hct)
    rw [ClassDecl.ownType, id_of_class? h] at hreach
    obtain ⟨depth, hdepth⟩ :=
      exists_mayDeclare_eq_false_of_reaches (Bool.eq_false_iff.2 hmay) hreach
    exact ownOverloads_eq_nil hdepth

/-! ### Class by class -/

/-- The declared ones among the types that a class type has, in the order of a depth-first walk. -/
def declaredAncestors (reg : Registry) (ct : ClassType) : List ClassType :=
  (reg.ancestors .depthFirst ct).filter fun x => reg.contains x.id

theorem nodup_declaredAncestors (ct : ClassType) :
    ((reg.declaredAncestors ct).map ClassType.id).Nodup :=
  (nodup_ancestors .depthFirst ct).sublist (List.filter_sublist.map ClassType.id)

theorem declaredAncestors_eq_cons {ct : ClassType} (h : reg.contains ct.id = true) :
    ∃ rest, reg.declaredAncestors ct = ct :: rest := by
  rw [declaredAncestors, ancestors_eq_cons, List.filter_cons_of_pos (by simpa using h)]
  exact ⟨_, rfl⟩

theorem id_mem_declaredAncestors_iff {ct : ClassType} {sup : ClassId} :
    sup ∈ (reg.declaredAncestors ct).map ClassType.id ↔
      reg.contains sup = true ∧ ReflTransGen reg.Extends ct.id sup := by
  constructor
  · intro h
    obtain ⟨x, hx, rfl⟩ := List.mem_map.1 h
    obtain ⟨hmet, hcontains⟩ := List.mem_filter.1 hx
    exact ⟨hcontains, reaches_id (reaches_of_mem_ancestors hmet)⟩
  · rintro ⟨hcontains, hreach⟩
    have hmet : sup ∈ (reg.ancestors .depthFirst ct).map ClassType.id :=
      id_mem_ancestors_iff.2 hreach
    obtain ⟨x, hx, rfl⟩ := List.mem_map.1 hmet
    exact List.mem_map.2 ⟨x, List.mem_filter.2 ⟨hx, hcontains⟩, rfl⟩

theorem ownOverloads_of_undeclared {name : String} {ct : ClassType}
    (h : reg.contains ct.id = false) : reg.ownOverloads name ct = [] := by
  have hnone : reg.class? ct.id = none := by
    simpa [contains, Dictionary.contains, class?] using h
  simp only [ownOverloads, hnone]

theorem ownOverloads_eq_flatMap (name : String) (ct : ClassType) :
    reg.ownOverloads name ct = (reg.class? ct.id).toList.flatMap fun d =>
      (d.overloads name).map fun m => (reg.bindingOf ct).applyToSignature m.signature := by
  cases hdecl : reg.class? ct.id with
  | none => simp only [ownOverloads, hdecl, Option.toList_none, List.flatMap_nil]
  | some d => simp only [ownOverloads, hdecl, Option.toList_some, List.flatMap_singleton]

/-- Classes that are not declared have no methods, so that they can be left out. -/
theorem overloadsOf_eq_flatMap_declaredAncestors (name : String) (ct : ClassType) :
    reg.overloadsOf name ct = (reg.declaredAncestors ct).flatMap (reg.ownOverloads name) := by
  rw [overloadsOf, declaredAncestors]
  induction reg.ancestors .depthFirst ct with
  | nil => rfl
  | cons x met ih =>
    rw [List.flatMap_cons, ih]
    cases hx : reg.contains x.id with
    | true => rw [List.filter_cons_of_pos (by simpa using hx), List.flatMap_cons]
    | false =>
      rw [List.filter_cons_of_neg (by simp [hx]), ownOverloads_of_undeclared hx, List.nil_append]

/-- The methods of one name of a declared class are listed along a line of class types that has each
declared class above it once, and the class itself first. The class itself lists its methods as they
are declared. Every other class lists those of its declaration with the arguments filled in at which
the line has it, and at these it can be reached from the class applied to its own parameters. -/
theorem overloads_eq_blocks {id : ClassId} {decl : ClassDecl} (h : reg.class? id = some decl)
    (name : String) :
    ∃ line : List ClassType,
      (line.map ClassType.id).Nodup ∧
      (line.map ClassType.id).head? = some id ∧
      (∀ sup, sup ∈ line.map ClassType.id ↔
        reg.contains sup = true ∧ ReflTransGen reg.Extends id sup) ∧
      (∀ ct ∈ line, ReflTransGen reg.Step decl.ownType ct) ∧
      reg.overloads id name = line.flatMap fun ct =>
        if ct.id = id then (decl.overloads name).map MethodDecl.signature
        else (reg.class? ct.id).toList.flatMap fun d =>
          (d.overloads name).map fun m => (reg.bindingOf ct).applyToSignature m.signature := by
  have hown : decl.ownType.id = id := id_of_class? h
  have hcontains : reg.contains decl.ownType.id = true := by
    rw [hown]
    exact Option.isSome_iff_exists.2 ⟨decl, h⟩
  obtain ⟨rest, hrest⟩ := declaredAncestors_eq_cons hcontains
  refine ⟨reg.declaredAncestors decl.ownType, nodup_declaredAncestors _, ?_, ?_, ?_, ?_⟩
  · rw [hrest, List.map_cons, List.head?_cons, hown]
  · intro sup
    rw [id_mem_declaredAncestors_iff, hown]
  · intro ct hct
    exact reaches_of_mem_ancestors (List.mem_of_mem_filter hct)
  · rw [overloads_eq_overloadsOf h, overloadsOf_eq_flatMap_declaredAncestors]
    refine List.flatMap_congr fun ct hct => ?_
    split
    · -- The line has the class itself once, at its own parameters.
      rename_i hid
      have hself : decl.ownType ∈ reg.declaredAncestors decl.ownType := hrest ▸ List.mem_cons_self
      have hct' : ct = decl.ownType :=
        List.inj_on_of_nodup_map (nodup_declaredAncestors _) hct hself (hid.trans hown.symm)
      rw [hct', ownOverloads_ownType h]
    · exact ownOverloads_eq_flatMap name ct

/-- A class `Box<T>` that extends `Base<T>`, implements `Shape<T[]>`, and names an interface that is
not declared. -/
def boxDecl : ClassDecl where
  id := ⟨1⟩
  name := "Box"
  typeParams := [⟨0⟩]
  superclass := some ⟨⟨2⟩, [.var ⟨0⟩]⟩
  interfaces := [⟨⟨3⟩, [.array (.var ⟨0⟩)]⟩, .simple ⟨9⟩]
  methods := [⟨"add", ⟨[.var ⟨0⟩], .nominal ⟨1⟩ [.var ⟨0⟩]⟩, ⟨false⟩⟩]

/-- A class `Base<U>` that implements `Shape<U>`. -/
def baseDecl : ClassDecl where
  id := ⟨2⟩
  name := "Base"
  typeParams := [⟨1⟩]
  interfaces := [⟨⟨3⟩, [.var ⟨1⟩]⟩]
  methods := [⟨"add", ⟨[.var ⟨1⟩], .var ⟨1⟩⟩, ⟨false⟩⟩]

/-- An interface `Shape<U>` that is a subtype of raw `Box`, so that the hierarchy goes round. -/
def shapeDecl : ClassDecl where
  id := ⟨3⟩
  name := "Shape"
  modifiers := ⟨true⟩
  typeParams := [⟨1⟩]
  interfaces := [.simple ⟨1⟩]
  methods := [⟨"add", ⟨[.array (.var ⟨1⟩)], .var ⟨1⟩⟩, ⟨false⟩⟩]

/-- The three classes and a root. -/
def boxDecls : List ClassDecl := [shapeDecl, baseDecl, boxDecl, { id := ⟨0⟩, name := "Object" }]

/-- A registry of `boxDecls`. -/
def boxRegistry : Registry :=
  { Registry.empty ⟨0⟩ with
    classes := boxDecls.foldr (fun decl table => table.declare decl) .empty
    typeParams := #[⟨"T", none⟩, ⟨"U", none⟩]
    root := some ⟨0⟩ }

theorem overloads_eq_blocks_box :
    boxRegistry.class? ⟨1⟩ = some boxDecl ∧
      ∃ line : List ClassType,
        (line.map ClassType.id).Nodup ∧
        (line.map ClassType.id).head? = some ⟨1⟩ ∧
        (∀ sup, sup ∈ line.map ClassType.id ↔
          boxRegistry.contains sup = true ∧ ReflTransGen boxRegistry.Extends ⟨1⟩ sup) ∧
        (∀ ct ∈ line, ReflTransGen boxRegistry.Step boxDecl.ownType ct) ∧
        boxRegistry.overloads ⟨1⟩ "add" = line.flatMap fun ct =>
          if ct.id = ⟨1⟩ then (boxDecl.overloads "add").map MethodDecl.signature
          else (boxRegistry.class? ct.id).toList.flatMap fun d =>
            (d.overloads "add").map fun m =>
              (boxRegistry.bindingOf ct).applyToSignature m.signature := by
  have hdecl : boxRegistry.class? ⟨1⟩ = some boxDecl := by decide
  exact ⟨hdecl, overloads_eq_blocks hdecl "add"⟩

theorem ancestors_boxRegistry : boxRegistry.ancestors .depthFirst boxDecl.ownType =
    [boxDecl.ownType, ⟨⟨2⟩, [.var ⟨0⟩]⟩, ⟨⟨3⟩, [.var ⟨0⟩]⟩, ⟨⟨0⟩, []⟩, ⟨⟨9⟩, []⟩] := by
  have hbox : boxRegistry.supertypes boxDecl.ownType =
      [⟨⟨2⟩, [.var ⟨0⟩]⟩, ⟨⟨3⟩, [.array (.var ⟨0⟩)]⟩, ⟨⟨9⟩, []⟩] := by decide
  have hbase : boxRegistry.supertypes ⟨⟨2⟩, [.var ⟨0⟩]⟩ = [⟨⟨3⟩, [.var ⟨0⟩]⟩, ⟨⟨0⟩, []⟩] := by
    decide
  have hshape : boxRegistry.supertypes ⟨⟨3⟩, [.var ⟨0⟩]⟩ = [⟨⟨1⟩, []⟩, ⟨⟨0⟩, []⟩] := by decide
  have hroot : boxRegistry.supertypes ⟨⟨0⟩, []⟩ = [] := by decide
  have hundeclared : boxRegistry.supertypes ⟨⟨9⟩, []⟩ = [] := by decide
  rw [ancestors_eq_cons, hbox]
  simp [Order.schedule, walk_cons_of_notMem, walk_cons_of_mem, walk_nil, hbase, hshape, hroot,
    hundeclared, ClassDecl.ownType, boxDecl]

/-- `Shape` is met twice, and only the arguments count at which `Base` has it. -/
theorem overloads_boxRegistry : boxRegistry.overloads ⟨1⟩ "add" =
    [⟨[.var ⟨0⟩], .nominal ⟨1⟩ [.var ⟨0⟩]⟩, ⟨[.var ⟨0⟩], .var ⟨0⟩⟩,
      ⟨[.array (.var ⟨0⟩)], .var ⟨0⟩⟩] := by
  have hdecl : boxRegistry.class? ⟨1⟩ = some boxDecl := by decide
  rw [overloads_eq_overloadsOf hdecl, overloadsOf, ancestors_boxRegistry]
  decide

end Registry

end MethodOperators
