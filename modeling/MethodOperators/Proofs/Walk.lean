import MethodOperators.Registry.Hierarchy
import Mathlib.Logic.Relation

/-! A walk up the hierarchy looks at one instance of each class that can be reached, in whichever
order it goes. -/

namespace MethodOperators

open Relation (ReflTransGen)

namespace Registry

variable {reg : Registry}

/-! ### One step up -/

/-- `reg.Extends id sup` says that the class `id` is declared, and that `sup` is named by one of its
clauses or is the root that it has as a supertype without saying so. -/
inductive Extends (reg : Registry) : ClassId → ClassId → Prop
  /-- A supertype that the class names. -/
  | clause {id : ClassId} {decl : ClassDecl} {sup : ClassType}
      (hdecl : reg.class? id = some decl) (hsup : sup ∈ decl.clauses) : Extends reg id sup.id
  /-- The root, for a class without a superclass. -/
  | root {id root : ClassId} {decl : ClassDecl} (hdecl : reg.class? id = some decl)
      (hnone : decl.superclass = none) (hroot : reg.root = some root) (hne : root ≠ id) :
      Extends reg id root

/-- `reg.Step ct sup` says that `sup` is one of the supertypes of `ct`, one step up. -/
def Step (reg : Registry) (ct sup : ClassType) : Prop := sup ∈ reg.supertypes ct

theorem id_of_class? {id : ClassId} {decl : ClassDecl} (h : reg.class? id = some decl) :
    decl.id = id :=
  ClassTable.id_of_find? h

theorem implicitRoot?_eq_some_iff {decl : ClassDecl} {root : ClassId} :
    reg.implicitRoot? decl = some root ↔
      decl.superclass = none ∧ reg.root = some root ∧ root ≠ decl.id := by
  unfold implicitRoot?
  split
  · rename_i h
    simp [Option.filter_eq_some_iff, Option.isNone_iff_eq_none.1 h]
  · rename_i h
    have hsome : decl.superclass ≠ none := fun hnone => h (Option.isNone_iff_eq_none.2 hnone)
    simp [hsome]

theorem supertypes_of_undeclared {ct : ClassType} (h : reg.class? ct.id = none) :
    reg.supertypes ct = [] := by
  simp only [supertypes, h]

theorem supertypes_of_declared {ct : ClassType} {decl : ClassDecl}
    (h : reg.class? ct.id = some decl) :
    reg.supertypes ct = decl.clauses.map (reg.bindingOf ct).applyToClass ++
      (reg.implicitRoot? decl).toList.map .simple := by
  simp only [supertypes, h]

/-- What is directly above a class type: a clause of its class under its arguments, or the root. -/
theorem step_iff {ct sup : ClassType} :
    reg.Step ct sup ↔ ∃ decl, reg.class? ct.id = some decl ∧
      ((∃ clause ∈ decl.clauses, (reg.bindingOf ct).applyToClass clause = sup) ∨
        ∃ root, reg.implicitRoot? decl = some root ∧ .simple root = sup) := by
  cases hdecl : reg.class? ct.id with
  | none => simp [Step, supertypes_of_undeclared hdecl]
  | some decl =>
    rw [Step, supertypes_of_declared hdecl, List.mem_append, List.mem_map, List.mem_map]
    simp only [Option.mem_toList, Option.some.injEq, exists_eq_left']

theorem extends_iff_of_declared {id sup : ClassId} {decl : ClassDecl}
    (hdecl : reg.class? id = some decl) :
    reg.Extends id sup ↔
      (∃ ct ∈ decl.clauses, ct.id = sup) ∨ reg.implicitRoot? decl = some sup := by
  rw [implicitRoot?_eq_some_iff, id_of_class? hdecl]
  constructor
  · intro h
    cases h with
    | clause hdecl' hsup =>
      obtain rfl := Option.some.inj (hdecl.symm.trans hdecl')
      exact .inl ⟨_, hsup, rfl⟩
    | root hdecl' hnone hroot hne =>
      obtain rfl := Option.some.inj (hdecl.symm.trans hdecl')
      exact .inr ⟨hnone, hroot, hne⟩
  · rintro (⟨ct, hct, rfl⟩ | ⟨hnone, hroot, hne⟩)
    · exact .clause hdecl hct
    · exact .root hdecl hnone hroot hne

theorem Extends.declared {id sup : ClassId} (h : reg.Extends id sup) :
    ∃ decl, reg.class? id = some decl := by
  cases h with
  | clause hdecl _ => exact ⟨_, hdecl⟩
  | root hdecl _ _ _ => exact ⟨_, hdecl⟩

/-- The classes of the supertypes of a class type depend on its class alone. -/
theorem extends_iff {ct : ClassType} {id : ClassId} :
    reg.Extends ct.id id ↔ ∃ sup, reg.Step ct sup ∧ sup.id = id := by
  constructor
  · intro h
    obtain ⟨decl, hdecl⟩ := h.declared
    rcases (extends_iff_of_declared hdecl).1 h with ⟨clause, hclause, rfl⟩ | hroot
    · exact ⟨_, step_iff.2 ⟨decl, hdecl, .inl ⟨clause, hclause, rfl⟩⟩, rfl⟩
    · exact ⟨_, step_iff.2 ⟨decl, hdecl, .inr ⟨id, hroot, rfl⟩⟩, rfl⟩
  · rintro ⟨sup, hstep, rfl⟩
    obtain ⟨decl, hdecl, ⟨clause, hclause, rfl⟩ | ⟨root, hroot, rfl⟩⟩ := step_iff.1 hstep
    · exact (extends_iff_of_declared hdecl).2 (.inl ⟨clause, hclause, rfl⟩)
    · exact (extends_iff_of_declared hdecl).2 (.inr hroot)

/-! ### One step of a walk -/

theorem Order.mem_schedule {order : Order} {met pending : List ClassType} {ct : ClassType} :
    ct ∈ order.schedule met pending ↔ ct ∈ met ∨ ct ∈ pending := by
  cases order with
  | depthFirst => exact List.mem_append
  | breadthFirst => exact List.mem_append.trans or_comm

theorem walk_nil (order : Order) (seen : List ClassId) : reg.walk order seen [] = [] := by
  rw [walk]

theorem walk_cons_of_mem {order : Order} {seen : List ClassId} {ct : ClassType}
    {pending : List ClassType} (h : ct.id ∈ seen) :
    reg.walk order seen (ct :: pending) = reg.walk order seen pending := by
  rw [walk, dif_pos h]

/-- A class that is not declared has no supertypes, so that it needs no case of its own. -/
theorem walk_cons_of_notMem {order : Order} {seen : List ClassId} {ct : ClassType}
    {pending : List ClassType} (h : ct.id ∉ seen) :
    reg.walk order seen (ct :: pending) =
      ct :: reg.walk order (ct.id :: seen) (order.schedule (reg.supertypes ct) pending) := by
  rw [walk, dif_neg h]
  split
  · rename_i hnone
    rw [supertypes_of_undeclared hnone]
    cases order <;> simp [Order.schedule]
  · rfl

/-- A walk comes to its end, passes over a class that it has seen, or looks at one that it has not
seen and goes on with the supertypes of that class as well. -/
@[elab_as_elim]
theorem walk_induction (reg : Registry) (order : Order)
    {motive : List ClassId → List ClassType → Prop}
    (nil : ∀ seen, motive seen [])
    (skip : ∀ seen ct pending, ct.id ∈ seen → motive seen pending → motive seen (ct :: pending))
    (visit : ∀ seen ct pending, ct.id ∉ seen →
      motive (ct.id :: seen) (order.schedule (reg.supertypes ct) pending) →
      motive seen (ct :: pending)) :
    ∀ seen pending, motive seen pending := by
  intro seen pending
  induction seen, pending using walk.induct reg order with
  | case1 seen => exact nil seen
  | case2 seen ct pending hmem ih => exact skip seen ct pending hmem ih
  | case3 seen ct pending hmem hnone ih =>
    refine visit seen ct pending hmem ?_
    rw [supertypes_of_undeclared hnone]
    cases order <;> simpa [Order.schedule] using ih
  | case4 seen ct pending hmem decl hdecl ih => exact visit seen ct pending hmem ih

/-! ### Whole walks -/

theorem id_notMem_of_mem_walk {order : Order} (seen : List ClassId) (pending : List ClassType) :
    ∀ ct ∈ reg.walk order seen pending, ct.id ∉ seen := by
  induction seen, pending using walk_induction reg order with
  | nil seen => simp [walk_nil]
  | skip seen ct pending hmem ih => rwa [walk_cons_of_mem hmem]
  | visit seen ct pending hmem ih =>
    rw [walk_cons_of_notMem hmem]
    intro x hx
    rcases List.mem_cons.1 hx with rfl | hx
    · exact hmem
    · exact fun hseen => ih x hx (List.mem_cons_of_mem _ hseen)

theorem nodup_walk {order : Order} (seen : List ClassId) (pending : List ClassType) :
    ((reg.walk order seen pending).map ClassType.id).Nodup := by
  induction seen, pending using walk_induction reg order with
  | nil seen => simp [walk_nil]
  | skip seen ct pending hmem ih => rwa [walk_cons_of_mem hmem]
  | visit seen ct pending hmem ih =>
    rw [walk_cons_of_notMem hmem, List.map_cons, List.nodup_cons]
    refine ⟨?_, ih⟩
    intro hagain
    obtain ⟨x, hx, hid⟩ := List.mem_map.1 hagain
    exact id_notMem_of_mem_walk _ _ x hx (hid ▸ List.mem_cons_self)

theorem exists_reaches_of_mem_walk {order : Order} (seen : List ClassId)
    (pending : List ClassType) :
    ∀ ct ∈ reg.walk order seen pending, ∃ start ∈ pending, ReflTransGen reg.Step start ct := by
  induction seen, pending using walk_induction reg order with
  | nil seen => simp [walk_nil]
  | skip seen ct pending hmem ih =>
    rw [walk_cons_of_mem hmem]
    intro x hx
    obtain ⟨start, hstart, hreach⟩ := ih x hx
    exact ⟨start, List.mem_cons_of_mem _ hstart, hreach⟩
  | visit seen ct pending hmem ih =>
    rw [walk_cons_of_notMem hmem]
    intro x hx
    rcases List.mem_cons.1 hx with rfl | hx
    · exact ⟨x, List.mem_cons_self, .refl⟩
    · -- What was met on the way is one step above `ct`.
      obtain ⟨start, hstart, hreach⟩ := ih x hx
      rcases Order.mem_schedule.1 hstart with hmet | hpending
      · exact ⟨ct, List.mem_cons_self, .head hmet hreach⟩
      · exact ⟨start, List.mem_cons_of_mem _ hpending, hreach⟩

theorem mem_or_mem_cons_of_cons {seen later : List ClassId} {id head : ClassId}
    (h : id ∈ head :: seen ∨ id ∈ later) : id ∈ seen ∨ id ∈ head :: later := by
  rcases h with hseen | hlater
  · rcases List.mem_cons.1 hseen with rfl | hseen
    · exact .inr List.mem_cons_self
    · exact .inl hseen
  · exact .inr (List.mem_cons_of_mem _ hlater)

/-- Every class that is pending has been seen or is looked at. -/
theorem id_mem_walk_of_mem_pending {order : Order} (seen : List ClassId)
    (pending : List ClassType) :
    ∀ ct ∈ pending, ct.id ∈ seen ∨ ct.id ∈ (reg.walk order seen pending).map ClassType.id := by
  induction seen, pending using walk_induction reg order with
  | nil seen => simp
  | skip seen ct pending hmem ih =>
    rw [walk_cons_of_mem hmem]
    intro x hx
    rcases List.mem_cons.1 hx with rfl | hx
    · exact .inl hmem
    · exact ih x hx
  | visit seen ct pending hmem ih =>
    rw [walk_cons_of_notMem hmem, List.map_cons]
    intro x hx
    rcases List.mem_cons.1 hx with rfl | hx
    · exact .inr List.mem_cons_self
    · exact mem_or_mem_cons_of_cons (ih x (Order.mem_schedule.2 (.inr hx)))

/-- A walk leaves nothing out: the classes directly above one that it looks at have been seen before
or are looked at as well. -/
theorem id_mem_walk_of_step {order : Order} (seen : List ClassId) (pending : List ClassType) :
    ∀ ct ∈ reg.walk order seen pending, ∀ sup, reg.Step ct sup →
      sup.id ∈ seen ∨ sup.id ∈ (reg.walk order seen pending).map ClassType.id := by
  induction seen, pending using walk_induction reg order with
  | nil seen => simp [walk_nil]
  | skip seen ct pending hmem ih => rwa [walk_cons_of_mem hmem]
  | visit seen ct pending hmem ih =>
    rw [walk_cons_of_notMem hmem, List.map_cons]
    intro x hx sup hsup
    rcases List.mem_cons.1 hx with rfl | hx
    · have hmet : sup ∈ order.schedule (reg.supertypes x) pending :=
        Order.mem_schedule.2 (.inl hsup)
      exact mem_or_mem_cons_of_cons (id_mem_walk_of_mem_pending _ _ sup hmet)
    · exact mem_or_mem_cons_of_cons (ih x hx sup hsup)

/-! ### Walks from one class type -/

theorem reaches_id {ct sup : ClassType} (h : ReflTransGen reg.Step ct sup) :
    ReflTransGen reg.Extends ct.id sup.id :=
  h.lift ClassType.id fun _ b hstep => extends_iff.2 ⟨b, hstep, rfl⟩

theorem nodup_ancestors (order : Order) (ct : ClassType) :
    ((reg.ancestors order ct).map ClassType.id).Nodup :=
  nodup_walk [] [ct]

theorem ancestors_eq_cons (order : Order) (ct : ClassType) :
    reg.ancestors order ct =
      ct :: reg.walk order [ct.id] (order.schedule (reg.supertypes ct) []) :=
  walk_cons_of_notMem List.not_mem_nil

theorem reaches_of_mem_ancestors {order : Order} {ct x : ClassType}
    (hx : x ∈ reg.ancestors order ct) : ReflTransGen reg.Step ct x := by
  obtain ⟨start, hstart, hreach⟩ := exists_reaches_of_mem_walk [] [ct] x hx
  exact List.mem_singleton.1 hstart ▸ hreach

/-- A walk from a class type looks at the classes that can be reached from its class, and at no
others. -/
theorem id_mem_ancestors_iff {order : Order} {ct : ClassType} {id : ClassId} :
    id ∈ (reg.ancestors order ct).map ClassType.id ↔ ReflTransGen reg.Extends ct.id id := by
  constructor
  · intro h
    obtain ⟨x, hx, rfl⟩ := List.mem_map.1 h
    exact reaches_id (reaches_of_mem_ancestors hx)
  · intro h
    induction h with
    | refl => simp [ancestors_eq_cons]
    | tail _ hextends ih =>
      -- The walk has looked at an instance of the class before, and so at one of this class.
      obtain ⟨x, hx, rfl⟩ := List.mem_map.1 ih
      obtain ⟨sup, hstep, rfl⟩ := extends_iff.1 hextends
      exact (id_mem_walk_of_step [] [ct] x hx sup hstep).resolve_left List.not_mem_nil

end Registry

end MethodOperators
