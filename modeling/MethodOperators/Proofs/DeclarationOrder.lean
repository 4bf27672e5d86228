import MethodOperators.Proofs.Locality
import Mathlib.Data.List.Perm.Basic

/-! A class may mention classes that are declared after it, or never. So the order in which classes
are declared has no meaning. -/

namespace MethodOperators

namespace ClassTable

variable {t t' : ClassTable}

theorem find?_eq_of_perm (h : t.decls.Perm t'.decls) (id : ClassId) : t'.find? id = t.find? id := by
  refine Option.ext fun d => ?_
  rw [find?_eq_some_iff, find?_eq_some_iff, h.mem_iff]

theorem contains_declare_eq_false_iff {d : ClassDecl} {id : ClassId} :
    (t.declare d).contains id = false ↔ id ≠ d.id ∧ t.contains id = false := by
  rw [Dictionary.contains, find?_declare]
  split
  · rename_i h
    simp [h]
  · rename_i h
    simp [h, Dictionary.contains]

theorem decls_declare {d : ClassDecl} (h : t.contains d.id = false) :
    (t.declare d).decls = t.decls ++ [d] := by
  simp only [decls, declare, Dictionary.entries_insertIfNew h, List.map_append, List.map_singleton]

/-- New classes are put behind those that a table has, the latest last. -/
theorem decls_foldl_declare {ds : List ClassDecl} (hnodup : (ds.map ClassDecl.id).Nodup)
    (hnew : ∀ d ∈ ds, t.contains d.id = false) :
    (ds.foldl declare t).decls = t.decls ++ ds := by
  induction ds generalizing t with
  | nil => exact (List.append_nil _).symm
  | cons d ds ih =>
    rw [List.map_cons, List.nodup_cons] at hnodup
    rw [List.foldl_cons, ih hnodup.2, decls_declare (hnew d List.mem_cons_self),
      List.append_assoc, List.singleton_append]
    intro e he
    refine contains_declare_eq_false_iff.2 ⟨?_, hnew e (List.mem_cons_of_mem d he)⟩
    intro hid
    exact hnodup.1 (hid ▸ List.mem_map_of_mem he)

end ClassTable

namespace Registry

variable {reg reg' : Registry}

/-! ### Many declarations -/

/-- Declares classes one after the other, up to the first that is refused. -/
def declareAll (reg : Registry) (decls : List ClassDecl) : Except DeclarationError Registry :=
  decls.foldlM declareClass reg

/-- The classes are new and different from each other, and all their type parameters have been
allocated. -/
structure Declarable (reg : Registry) (decls : List ClassDecl) : Prop where
  nodup : (decls.map ClassDecl.id).Nodup
  new : ∀ decl ∈ decls, reg.contains decl.id = false
  params : ∀ decl ∈ decls, ∀ v ∈ decl.typeParams, (reg.typeParam? v).isSome = true

theorem Declarable.perm {decls decls' : List ClassDecl} (h : reg.Declarable decls)
    (hperm : decls.Perm decls') : reg.Declarable decls' where
  nodup := (hperm.map ClassDecl.id).nodup_iff.1 h.nodup
  new decl hdecl := h.new decl (hperm.mem_iff.2 hdecl)
  params decl hdecl := h.params decl (hperm.mem_iff.2 hdecl)

theorem declarable_cons_iff {decl : ClassDecl} {decls : List ClassDecl} :
    reg.Declarable (decl :: decls) ↔
      reg.contains decl.id = false ∧ (∀ v ∈ decl.typeParams, (reg.typeParam? v).isSome = true) ∧
        Declarable { reg with classes := reg.classes.declare decl } decls := by
  constructor
  · intro h
    have hnodup := List.nodup_cons.1 h.nodup
    refine ⟨h.new decl List.mem_cons_self, h.params decl List.mem_cons_self, hnodup.2, ?_,
      fun d hd => h.params d (List.mem_cons_of_mem decl hd)⟩
    intro d hd
    refine ClassTable.contains_declare_eq_false_iff.2 ⟨?_, h.new d (List.mem_cons_of_mem decl hd)⟩
    intro hid
    exact hnodup.1 (hid ▸ List.mem_map_of_mem hd)
  · rintro ⟨hnew, hparams, hrest⟩
    have hlater (d : ClassDecl) (hd : d ∈ decls) : d.id ≠ decl.id ∧ reg.contains d.id = false :=
      ClassTable.contains_declare_eq_false_iff.1 (hrest.new d hd)
    refine ⟨List.nodup_cons.2 ⟨?_, hrest.nodup⟩, ?_, ?_⟩
    · intro hmem
      obtain ⟨d, hd, hid⟩ := List.mem_map.1 hmem
      exact (hlater d hd).1 hid
    · exact List.forall_mem_cons.2 ⟨hnew, fun d hd => (hlater d hd).2⟩
    · exact List.forall_mem_cons.2 ⟨hparams, hrest.params⟩

theorem declareAll_cons_eq_ok_iff {decl : ClassDecl} {decls : List ClassDecl} :
    reg.declareAll (decl :: decls) = .ok reg' ↔
      ∃ mid, reg.declareClass decl = .ok mid ∧ mid.declareAll decls = .ok reg' := by
  rw [declareAll, List.foldlM_cons]
  cases hdecl : reg.declareClass decl with
  | error e => simp [bind, Except.bind]
  | ok mid => simp [bind, Except.bind, declareAll]

/-- Classes can be declared one after the other just when they can be declared in any order. -/
theorem declareAll_eq_ok_iff {decls : List ClassDecl} :
    reg.declareAll decls = .ok reg' ↔ reg.Declarable decls ∧
      reg' = { reg with classes := decls.foldl ClassTable.declare reg.classes } := by
  induction decls generalizing reg with
  | nil =>
    have hnil : reg.Declarable [] := ⟨List.nodup_nil, nofun, nofun⟩
    simp [declareAll, pure, Except.pure, hnil, eq_comm]
  | cons decl decls ih =>
    rw [declareAll_cons_eq_ok_iff, declarable_cons_iff]
    constructor
    · rintro ⟨mid, hdecl, hrest⟩
      obtain ⟨hnew, hparams, rfl⟩ := declareClass_eq_ok_iff.1 hdecl
      obtain ⟨hdeclarable, rfl⟩ := ih.1 hrest
      exact ⟨⟨hnew, hparams, hdeclarable⟩, rfl⟩
    · rintro ⟨⟨hnew, hparams, hdeclarable⟩, rfl⟩
      exact ⟨_, declareClass_eq_ok_iff.2 ⟨hnew, hparams, rfl⟩, ih.2 ⟨hdeclarable, rfl⟩⟩

/-! ### Equal answers -/

/-- Two registries give equal answers to every question. -/
structure SameAnswers (reg reg' : Registry) : Prop where
  class? : ∀ id, reg'.class? id = reg.class? id
  classNamed? : ∀ name, reg'.classNamed? name = reg.classNamed? name
  size : reg'.size = reg.size
  instantiate : ∀ name args, reg'.instantiate name args = reg.instantiate name args
  render : ∀ t, reg'.render t = reg.render t
  bindingOf : ∀ ct, reg'.bindingOf ct = reg.bindingOf ct
  supertypes : ∀ ct, reg'.supertypes ct = reg.supertypes ct
  overloads : ∀ id name, reg'.overloads id name = reg.overloads id name
  isAssignable : ∀ target source, reg'.isAssignable target source = reg.isAssignable target source
  resolve : ∀ (flags : Flags) (asked : List (Question classTypes)) (receiver : Option Ty)
    (name : String) (args : List (Option Ty)),
    (resolve (S := classTypes) receiver name args).run (reg'.host flags) asked =
      (resolve (S := classTypes) receiver name args).run (reg.host flags) asked

theorem renderAll_eq_map (reg : Registry) (ts : List Ty) : reg.renderAll ts = ts.map reg.render := by
  induction ts with
  | nil => rfl
  | cons t ts ih => rw [renderAll, ih, List.map_cons]

theorem render_congr (hclass : ∀ id, reg'.class? id = reg.class? id)
    (hparams : reg'.typeParams = reg.typeParams) (t : Ty) : reg'.render t = reg.render t := by
  have hname (id : ClassId) : reg'.renderClass id = reg.renderClass id := by
    simp only [renderClass, hclass]
  induction t using Ty.induct with
  | primitive kind => rw [render, render]
  | null => rw [render, render]
  | var v => simp only [render, renderVar, typeParam?, hparams]
  | array element ih => rw [render, render, ih]
  | nominal id args ih =>
    cases args with
    | nil => rw [render, render, hname]
    | cons arg args =>
      have hargs : reg'.renderAll (arg :: args) = reg.renderAll (arg :: args) := by
        rw [renderAll_eq_map, renderAll_eq_map]
        exact List.map_congr_left ih
      rw [render, render, hname, hargs]

/-- Two registries that agree on all classes, and have equally many of them. -/
theorem AgreeOn.sameAnswers (h : AgreeOn (fun _ => True) reg reg') (hsize : reg'.size = reg.size) :
    reg.SameAnswers reg' where
  class? id := h.class?_eq id trivial
  classNamed? name := h.class?_eq (ClassId.ofName name) trivial
  size := hsize
  instantiate name args := by
    simp only [Registry.instantiate, Registry.classNamed?, h.class?_eq _ trivial]
  render := render_congr (fun id => h.class?_eq id trivial) h.typeParams_eq
  bindingOf ct := h.bindingOf_eq trivial
  supertypes ct := h.supertypes_eq trivial
  overloads id name := h.overloads_eq trivial name
  isAssignable target source :=
    h.assignableWithin_eq (fun _ _ _ _ _ => trivial) (fun _ _ _ => trivial) _ target source
      fun _ _ => trivial
  resolve flags asked receiver name args := h.run_resolve_eq (fun _ _ => trivial) name flags asked

/-- Let classes be declared one after the other, all with success. In every other order they are
declared with success as well, and the registry that results gives the same answers. -/
theorem declareAll_of_perm {decls decls' : List ClassDecl} (hperm : decls.Perm decls')
    {first : Registry} (hfirst : reg.declareAll decls = .ok first) :
    ∃ second, reg.declareAll decls' = .ok second ∧ first.SameAnswers second := by
  obtain ⟨hdeclarable, rfl⟩ := declareAll_eq_ok_iff.1 hfirst
  have hdeclarable' := hdeclarable.perm hperm
  have hdecls := ClassTable.decls_foldl_declare hdeclarable.nodup hdeclarable.new
  have hdecls' := ClassTable.decls_foldl_declare hdeclarable'.nodup hdeclarable'.new
  have htables : (decls.foldl ClassTable.declare reg.classes).decls.Perm
      (decls'.foldl ClassTable.declare reg.classes).decls := by
    rw [hdecls, hdecls']
    exact hperm.append_left reg.classes.decls
  refine ⟨_, declareAll_eq_ok_iff.2 ⟨hdeclarable', rfl⟩, AgreeOn.sameAnswers ?_ ?_⟩
  · exact ⟨fun id _ => ClassTable.find?_eq_of_perm htables id, rfl, rfl, rfl, rfl, rfl,
      fun _ _ _ _ => trivial⟩
  · simpa [Registry.size, Dictionary.size, ClassTable.decls] using htables.length_eq.symm

/-- Three classes of which each names another one, declared from either end. -/
theorem declareAll_of_perm_box :
    let reg : Registry := { Registry.empty ⟨0⟩ with typeParams := #[⟨"T", none⟩, ⟨"U", none⟩] }
    ∃ first second, reg.declareAll [boxDecl, baseDecl, shapeDecl] = .ok first ∧
      reg.declareAll [shapeDecl, baseDecl, boxDecl] = .ok second ∧
      first.classes.decls ≠ second.classes.decls ∧ first.SameAnswers second := by
  intro reg
  have hperm : [boxDecl, baseDecl, shapeDecl].Perm [shapeDecl, baseDecl, boxDecl] :=
    (List.reverse_perm [boxDecl, baseDecl, shapeDecl]).symm
  obtain ⟨first, hfirst, hdecls⟩ : ∃ first,
      reg.declareAll [boxDecl, baseDecl, shapeDecl] = .ok first ∧
        first.classes.decls = [boxDecl, baseDecl, shapeDecl] := ⟨_, rfl, rfl⟩
  obtain ⟨second, hsecond, hsame⟩ := declareAll_of_perm hperm hfirst
  refine ⟨first, second, hfirst, hsecond, ?_, hsame⟩
  obtain ⟨-, rfl⟩ := declareAll_eq_ok_iff.1 hsecond
  rw [hdecls]
  decide

end Registry

end MethodOperators
