import MethodOperators.Proofs.Enumeration
import MethodOperators.Proofs.NearestInstance
import Mathlib.Algebra.BigOperators.Group.List.Basic
import Mathlib.Algebra.GroupWithZero.Nat

/-! Methods are listed along a depth-first walk, and subtyping is decided along a breadth-first one
that takes the root for granted. Both see the same classes below a line of superclasses that ends.
-/

namespace MethodOperators

open Relation (ReflTransGen)

namespace Registry

variable {reg : Registry}

/-! ### Lines of superclasses -/

/-- The line of superclasses that starts at a class is finite, and its last member is declared and
has no superclass. -/
inductive LineEnds (reg : Registry) : ClassId → Prop
  | top {id : ClassId} {decl : ClassDecl} (hdecl : reg.class? id = some decl)
      (hnone : decl.superclass = none) : LineEnds reg id
  | up {id : ClassId} {decl : ClassDecl} {sup : ClassType} (hdecl : reg.class? id = some decl)
      (hsup : decl.superclass = some sup) (hline : LineEnds reg sup.id) : LineEnds reg id

theorem LineEnds.reaches_root {id root : ClassId} (h : reg.LineEnds id)
    (hroot : reg.root = some root) : ReflTransGen reg.Extends id root := by
  induction h with
  | @top id decl hdecl hnone =>
    by_cases hself : root = id
    · rw [hself]
    · exact .single (.root hdecl hnone hroot hself)
  | @up id decl sup hdecl hsup _ ih =>
    have hclause : sup ∈ decl.clauses := by simp [ClassDecl.clauses, hsup]
    exact .head (.clause hdecl hclause) ih

theorem LineEnds.isAssignable_simple_iff {sub sup : ClassId} (h : reg.LineEnds sub) :
    reg.isAssignable (.simple sup) (.simple sub) = true ↔ ReflTransGen reg.Extends sub sup := by
  rw [Registry.isAssignable_simple_iff]
  constructor
  · rintro (hroot | hreach)
    · exact h.reaches_root hroot
    · exact hreach
  · exact .inr

/-! ### Counting methods -/

theorem contains_iff_mem_decls {id : ClassId} :
    reg.contains id = true ↔ ∃ decl ∈ reg.classes.decls, decl.id = id := by
  constructor
  · intro h
    obtain ⟨decl, hdecl⟩ := Option.isSome_iff_exists.1 h
    exact ⟨decl, ClassTable.mem_of_find? hdecl, id_of_class? hdecl⟩
  · rintro ⟨decl, hmem, rfl⟩
    exact Option.isSome_iff_exists.2 ⟨decl, ClassTable.find?_of_mem hmem⟩

theorem length_ownOverloads {name : String} {ct : ClassType} {decl : ClassDecl}
    (h : reg.class? ct.id = some decl) :
    (reg.ownOverloads name ct).length = (decl.overloads name).length := by
  simp only [ownOverloads, h, List.length_map]

/-- Arguments change the methods that a class declares, and not how many there are. -/
theorem length_ownOverloads_simple (name : String) (ct : ClassType) :
    (reg.ownOverloads name ct).length = (reg.ownOverloads name (.simple ct.id)).length := by
  cases hdecl : reg.class? ct.id with
  | none => simp [ownOverloads, ClassType.simple, hdecl]
  | some decl =>
    have hdecl' : reg.class? (ClassType.simple ct.id).id = some decl := hdecl
    rw [length_ownOverloads hdecl, length_ownOverloads hdecl']

theorem length_overloads {id : ClassId} {decl : ClassDecl} (h : reg.class? id = some decl)
    (name : String) :
    (reg.overloads id name).length =
      (((reg.declaredAncestors decl.ownType).map ClassType.id).map fun sup =>
        (reg.ownOverloads name (.simple sup)).length).sum := by
  rw [overloads_eq_overloadsOf h, overloadsOf_eq_flatMap_declaredAncestors, List.length_flatMap,
    List.map_map]
  congr 1
  exact List.map_congr_left fun ct _ => length_ownOverloads_simple name ct

/-- The declared classes that subtyping puts above a class are those along which its methods are
listed. -/
theorem LineEnds.perm_declaredAncestors {id : ClassId} {decl : ClassDecl}
    (hdecl : reg.class? id = some decl) (hline : reg.LineEnds id) :
    ((reg.declaredAncestors decl.ownType).map ClassType.id).Perm
      ((reg.classes.decls.filter fun d =>
        reg.isAssignable (.simple d.id) (.simple id)).map ClassDecl.id) := by
  have hnodup : ((reg.classes.decls.filter fun d =>
      reg.isAssignable (.simple d.id) (.simple id)).map ClassDecl.id).Nodup :=
    reg.classes.nodup_decls.sublist (List.filter_sublist.map ClassDecl.id)
  refine (List.perm_ext_iff_of_nodup (nodup_declaredAncestors decl.ownType) hnodup).2 ?_
  intro sup
  have hown : decl.ownType.id = id := id_of_class? hdecl
  rw [id_mem_declaredAncestors_iff, hown, contains_iff_mem_decls, List.mem_map]
  constructor
  · rintro ⟨⟨d, hmem, rfl⟩, hreach⟩
    exact ⟨d, List.mem_filter.2 ⟨hmem, hline.isAssignable_simple_iff.2 hreach⟩, rfl⟩
  · rintro ⟨d, hd, rfl⟩
    obtain ⟨hmem, hassignable⟩ := List.mem_filter.1 hd
    exact ⟨⟨d, hmem, rfl⟩, hline.isAssignable_simple_iff.1 hassignable⟩

/-- Let the line of superclasses of a declared class come to an end. Then the class has as many
methods of one name as all declared classes together declare that a value of it may be used as. -/
theorem length_overloads_eq_sum {id : ClassId} (hline : reg.LineEnds id) (name : String) :
    (reg.overloads id name).length =
      ((reg.classes.decls.filter fun d => reg.isAssignable (.simple d.id) (.simple id)).map
        fun d => (d.overloads name).length).sum := by
  obtain ⟨decl, hdecl⟩ : ∃ decl, reg.class? id = some decl := by
    cases hline with
    | top hdecl _ => exact ⟨_, hdecl⟩
    | up hdecl _ _ => exact ⟨_, hdecl⟩
  rw [length_overloads hdecl, ((hline.perm_declaredAncestors hdecl).map _).sum_eq, List.map_map]
  congr 1
  refine List.map_congr_left fun d hd => ?_
  exact length_ownOverloads (ClassTable.find?_of_mem (List.mem_of_mem_filter hd))

/-- `Box` has three methods `add`, one from each class of a hierarchy that goes round. -/
theorem length_overloads_eq_sum_box :
    boxRegistry.LineEnds ⟨1⟩ ∧
      (boxRegistry.overloads ⟨1⟩ "add").length = 3 ∧
      ((boxRegistry.classes.decls.filter fun d =>
        boxRegistry.isAssignable (.simple d.id) (.simple ⟨1⟩)).map
          fun d => (d.overloads "add").length).sum = 3 := by
  have hbox : boxRegistry.class? ⟨1⟩ = some boxDecl := by decide
  have hbase : boxRegistry.class? ⟨2⟩ = some baseDecl := by decide
  have hline : boxRegistry.LineEnds ⟨1⟩ := .up hbox rfl (.top hbase rfl)
  have hcount : (boxRegistry.overloads ⟨1⟩ "add").length = 3 := by rw [overloads_boxRegistry]; rfl
  exact ⟨hline, hcount, (length_overloads_eq_sum hline "add").symm.trans hcount⟩

end Registry

end MethodOperators
