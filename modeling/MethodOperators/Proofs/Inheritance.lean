import MethodOperators.Proofs.Enumeration

/-! The methods of a class are listed in terms of its parameters, and arguments are filled in
afterwards. The same list comes out when the arguments are carried up the hierarchy from the start.
-/

namespace MethodOperators

namespace Registry

variable {reg : Registry}

/-! ### Well-scoped registries -/

/-- A class type that is raw, or has as many arguments as its class has parameters if that is
declared and generic. -/
def ArityFits (reg : Registry) (ct : ClassType) : Prop :=
  ∀ decl, reg.class? ct.id = some decl → decl.isGeneric = true →
    ct.args = [] ∨ ct.args.length = decl.typeParams.length

/-- The clauses of declarations mention no type parameters but those of their class, and use other
classes raw or with the right number of arguments. There is a root, and nothing is left open when a
parameter is erased. -/
structure ScopedClauses (reg : Registry) : Prop where
  /-- Clauses mention the parameters of their class only. -/
  clause_vars : ∀ id decl, reg.class? id = some decl →
    ∀ ct ∈ decl.clauses, ∀ v ∈ ct.vars, v ∈ decl.typeParams
  /-- Clauses are raw or have the right number of arguments. -/
  clause_arity : ∀ id decl, reg.class? id = some decl → ∀ ct ∈ decl.clauses, reg.ArityFits ct
  root_isSome : reg.root.isSome = true
  /-- No parameters occur in a bound that is an array. -/
  array_bound : ∀ v element, reg.bound? v = some (.array element) → element.vars = []

/-- Methods as well mention no type parameters but those of their class. -/
structure WellScoped (reg : Registry) : Prop extends ScopedClauses reg where
  /-- Methods mention the parameters of their class only. -/
  method_vars : ∀ id decl, reg.class? id = some decl →
    ∀ m ∈ decl.methods, ∀ v ∈ m.signature.vars, v ∈ decl.typeParams

/-! ### Erased parameters -/

theorem ScopedClauses.erasure? (h : reg.ScopedClauses) (v : TypeVar) :
    ∃ t, reg.erasure? v = some t ∧ t.vars = [] := by
  obtain ⟨root, hroot⟩ := Option.isSome_iff_exists.1 h.root_isSome
  unfold Registry.erasure?
  split
  · exact ⟨_, rfl, rfl⟩
  · rename_i element hbound
    exact ⟨_, rfl, h.array_bound v element hbound⟩
  · exact ⟨.simple root, by rw [hroot, Option.map_some], rfl⟩

/-- A parameter that is listed twice is erased to the same type each time. -/
theorem find?_erasing {params : List TypeVar} {v : TypeVar} (hv : v ∈ params) :
    (reg.erasing params).find? v = reg.erasure? v := by
  have hfound (t : Ty) (h : (reg.erasing params).find? v = some t) : reg.erasure? v = some t := by
    obtain ⟨w, -, hw⟩ := List.mem_filterMap.1 (Dictionary.mem_of_find?_ofList h)
    obtain ⟨u, hu, heq⟩ := Option.map_eq_some_iff.1 hw
    obtain ⟨rfl, rfl⟩ := Prod.mk.inj heq
    exact hu
  cases hfind : (reg.erasing params).find? v with
  | some t => exact (hfound t hfind).symm
  | none =>
    cases herasure : reg.erasure? v with
    | none => rfl
    | some t =>
      have hsome : ((reg.erasing params).find? v).isSome = true := by
        rw [erasing, Substitution.find?, Dictionary.find?_ofList_isSome, List.mem_map]
        exact ⟨(v, t), List.mem_filterMap.2 ⟨v, hv, by rw [herasure, Option.map_some]⟩, rfl⟩
      rw [hfind] at hsome
      cases hsome

theorem ScopedClauses.vars_image_erasing (h : reg.ScopedClauses) {params : List TypeVar}
    {v : TypeVar} (hv : v ∈ params) : ((reg.erasing params).image v).vars = [] := by
  obtain ⟨t, ht, hvars⟩ := h.erasure? v
  rwa [Substitution.image, find?_erasing hv, ht, Option.getD_some]

theorem ScopedClauses.vars_apply_erasing (h : reg.ScopedClauses) {params : List TypeVar} {t : Ty}
    (ht : ∀ v ∈ t.vars, v ∈ params) : ((reg.erasing params).apply t).vars = [] := by
  refine List.eq_nil_iff_forall_not_mem.2 fun v hv => ?_
  obtain ⟨w, hw, hv⟩ := Substitution.mem_vars_apply.1 hv
  rw [h.vars_image_erasing (ht w hw)] at hv
  exact List.not_mem_nil hv

/-! ### One step up under a substitution -/

theorem bindingOf_of_raw {ct : ClassType} {decl : ClassDecl} (hdecl : reg.class? ct.id = some decl)
    (hraw : ct.args = []) : reg.bindingOf ct = reg.erasing decl.typeParams := by
  simp [bindingOf, hdecl, hraw]

theorem bindingOf_of_args {ct : ClassType} {decl : ClassDecl} (hdecl : reg.class? ct.id = some decl)
    (hargs : ct.args ≠ []) : reg.bindingOf ct = .ofArgs decl.typeParams ct.args := by
  simp [bindingOf, hdecl, hargs]

/-- What a class type does to the declaration of its class, followed by a substitution, is what the
class type does to it after the substitution. -/
theorem ScopedClauses.apply_bindingOf (h : reg.ScopedClauses) (s : Substitution) {ct : ClassType}
    (hct : reg.ArityFits ct) {decl : ClassDecl} (hdecl : reg.class? ct.id = some decl) {t : Ty}
    (ht : ∀ v ∈ t.vars, v ∈ decl.typeParams) :
    s.apply ((reg.bindingOf ct).apply t) = (reg.bindingOf (s.applyToClass ct)).apply t := by
  by_cases hraw : ct.args = []
  · -- A raw use stays the same under the substitution, and so does all that it erases.
    have hsame : s.applyToClass ct = ct := by
      cases ct
      simp_all [Substitution.applyToClass]
    rw [hsame, bindingOf_of_raw hdecl hraw]
    exact s.apply_of_vars_eq_nil (h.vars_apply_erasing ht)
  · by_cases hgeneric : decl.isGeneric = true
    · have hlength : decl.typeParams.length = ct.args.length :=
        ((hct decl hdecl hgeneric).resolve_left hraw).symm
      have hargs' : reg.bindingOf (s.applyToClass ct) =
          .ofArgs decl.typeParams (ct.args.map s.apply) :=
        bindingOf_of_args hdecl (mt List.map_eq_nil_iff.1 hraw)
      rw [bindingOf_of_args hdecl hraw, hargs']
      exact Substitution.apply_apply_ofArgs s hlength ht
    · -- Without parameters there is nothing to replace in the declaration.
      have hparams : decl.typeParams = [] := by simpa [ClassDecl.isGeneric] using hgeneric
      have hvars : t.vars = [] :=
        List.eq_nil_iff_forall_not_mem.2 fun v hv => by simpa [hparams] using ht v hv
      simp only [Substitution.apply_of_vars_eq_nil _ hvars]

/-- A substitution goes through one step up the hierarchy. -/
theorem ScopedClauses.supertypes_applyToClass (h : reg.ScopedClauses) (s : Substitution)
    {ct : ClassType} (hct : reg.ArityFits ct) :
    reg.supertypes (s.applyToClass ct) = (reg.supertypes ct).map s.applyToClass := by
  cases hdecl : reg.class? ct.id with
  | none =>
    have hdecl' : reg.class? (s.applyToClass ct).id = none := hdecl
    rw [supertypes_of_undeclared hdecl, supertypes_of_undeclared hdecl', List.map_nil]
  | some decl =>
    have hdecl' : reg.class? (s.applyToClass ct).id = some decl := hdecl
    rw [supertypes_of_declared hdecl, supertypes_of_declared hdecl', List.map_append, List.map_map,
      List.map_map]
    congr 1
    refine List.map_congr_left fun clause hclause => ?_
    refine (Substitution.applyToClass_applyToClass fun t ht => ?_).symm
    exact h.apply_bindingOf s hct hdecl fun v hv =>
      h.clause_vars ct.id decl hdecl clause hclause v (ht v hv)

theorem WellScoped.ownOverloads_applyToClass (h : reg.WellScoped) (s : Substitution)
    {ct : ClassType} (hct : reg.ArityFits ct) (name : String) :
    reg.ownOverloads name (s.applyToClass ct) =
      (reg.ownOverloads name ct).map s.applyToSignature := by
  cases hdecl : reg.class? ct.id with
  | none => simp [ownOverloads, Substitution.applyToClass, hdecl]
  | some decl =>
    have hdecl' : reg.class? (s.applyToClass ct).id = some decl := hdecl
    simp only [ownOverloads, hdecl, hdecl', List.map_map]
    refine List.map_congr_left fun m hm => ?_
    refine (Substitution.applyToSignature_applyToSignature fun t ht => ?_).symm
    exact h.apply_bindingOf s hct hdecl fun v hv =>
      h.method_vars ct.id decl hdecl m (List.mem_of_mem_filter hm) v (ht v hv)

theorem ScopedClauses.arityFits_of_step (h : reg.ScopedClauses) {ct sup : ClassType}
    (hstep : reg.Step ct sup) : reg.ArityFits sup := by
  obtain ⟨decl, hdecl, ⟨clause, hclause, rfl⟩ | ⟨root, _, rfl⟩⟩ := step_iff.1 hstep
  · -- A substitution changes the arguments of a clause, and not how many there are.
    intro sup hsup hgeneric
    have hclause := h.clause_arity ct.id decl hdecl clause hclause sup hsup hgeneric
    simpa [Substitution.applyToClass] using hclause
  · exact fun _ _ _ => .inl rfl

/-! ### Walks under a substitution -/

theorem Order.schedule_map (order : Order) (f : ClassType → ClassType)
    (met pending : List ClassType) :
    order.schedule (met.map f) (pending.map f) = (order.schedule met pending).map f := by
  cases order with
  | depthFirst => exact List.map_append.symm
  | breadthFirst => exact List.map_append.symm

/-- A substitution goes through a walk: it changes the arguments that are met, and not the classes,
nor their order. -/
theorem ScopedClauses.walk_applyToClass (h : reg.ScopedClauses) (s : Substitution) (order : Order)
    (seen : List ClassId) (pending : List ClassType) (hpending : ∀ ct ∈ pending, reg.ArityFits ct) :
    reg.walk order seen (pending.map s.applyToClass) =
      (reg.walk order seen pending).map s.applyToClass := by
  induction seen, pending using walk_induction reg order with
  | nil seen => simp [walk_nil]
  | skip seen ct pending hmem ih =>
    have hmem' : (s.applyToClass ct).id ∈ seen := hmem
    rw [List.map_cons, walk_cons_of_mem hmem, walk_cons_of_mem hmem']
    exact ih fun x hx => hpending x (List.mem_cons_of_mem _ hx)
  | visit seen ct pending hmem ih =>
    have hmem' : (s.applyToClass ct).id ∉ seen := hmem
    have hct : reg.ArityFits ct := hpending ct List.mem_cons_self
    rw [List.map_cons, walk_cons_of_notMem hmem, walk_cons_of_notMem hmem', List.map_cons,
      h.supertypes_applyToClass s hct, Order.schedule_map]
    congr 1
    refine ih fun x hx => ?_
    rcases Order.mem_schedule.1 hx with hstep | hx
    · exact h.arityFits_of_step hstep
    · exact hpending x (List.mem_cons_of_mem _ hx)

theorem ScopedClauses.arityFits_of_mem_walk (h : reg.ScopedClauses) {order : Order}
    {seen : List ClassId} {pending : List ClassType} (hpending : ∀ ct ∈ pending, reg.ArityFits ct)
    {ct : ClassType} (hct : ct ∈ reg.walk order seen pending) : reg.ArityFits ct := by
  obtain ⟨start, hstart, hreach⟩ := exists_reaches_of_mem_walk seen pending ct hct
  cases hreach with
  | refl => exact hpending ct hstart
  | tail _ hstep => exact h.arityFits_of_step hstep

/-! ### Methods of a receiver -/

theorem supertypes_ownType {id : ClassId} {decl : ClassDecl} (h : reg.class? id = some decl) :
    reg.supertypes decl.ownType = decl.clauses ++ (reg.implicitRoot? decl).toList.map .simple := by
  rw [supertypes_of_declared (class?_ownType h)]
  congr 1
  refine (List.map_congr_left fun ct _ => ?_).trans (List.map_id' _)
  simp [Substitution.applyToClass, bindingOf_ownType_apply h]

theorem overloadsOf_eq_append (name : String) (ct : ClassType) :
    reg.overloadsOf name ct = reg.ownOverloads name ct ++
      (reg.walk .depthFirst [ct.id] (reg.supertypes ct)).flatMap (reg.ownOverloads name) := by
  rw [overloadsOf, ancestors_eq_cons, List.flatMap_cons, Order.schedule, List.append_nil]

/-- In a well-scoped registry, the methods of a class under the arguments of a class type are those
that a walk from this class type itself finds, in the same order. -/
theorem map_overloads_bindingOf (h : reg.WellScoped) {ct : ClassType} {decl : ClassDecl}
    (hdecl : reg.class? ct.id = some decl) (name : String) :
    (reg.overloads ct.id name).map (reg.bindingOf ct).applyToSignature =
      reg.overloadsOf name ct := by
  have hid : decl.ownType.id = ct.id := id_of_class? hdecl
  -- The first step up is special: the class type need not be an instance of the own type, as it is
  -- not when it is raw, but both have the same supertypes and methods up to the arguments.
  have hsupertypes : reg.supertypes ct =
      (reg.supertypes decl.ownType).map (reg.bindingOf ct).applyToClass := by
    rw [supertypes_ownType hdecl, supertypes_of_declared hdecl, List.map_append, List.map_map]
    rfl
  have hown : reg.ownOverloads name ct =
      (reg.ownOverloads name decl.ownType).map (reg.bindingOf ct).applyToSignature := by
    rw [ownOverloads_ownType hdecl, List.map_map]
    simp only [ownOverloads, hdecl]
    rfl
  have hfits : ∀ sup ∈ reg.supertypes decl.ownType, reg.ArityFits sup :=
    fun sup hsup => h.arityFits_of_step hsup
  rw [overloads_eq_overloadsOf hdecl, overloadsOf_eq_append, overloadsOf_eq_append, hid, hown,
    hsupertypes, h.walk_applyToClass _ _ _ _ hfits, List.map_append, List.map_flatMap,
    List.flatMap_map]
  congr 1
  refine List.flatMap_congr fun x hx => ?_
  exact (h.ownOverloads_applyToClass _ (h.arityFits_of_mem_walk hfits hx) name).symm

/-- What makes a registry well-scoped, said of the list of its declarations, so that it can be
decided. -/
theorem wellScoped_of_decls
    (hclauses : ∀ decl ∈ reg.classes.decls, ∀ ct ∈ decl.clauses, ∀ v ∈ ct.vars,
      v ∈ decl.typeParams)
    (hmethods : ∀ decl ∈ reg.classes.decls, ∀ m ∈ decl.methods, ∀ v ∈ m.signature.vars,
      v ∈ decl.typeParams)
    (harity : ∀ decl ∈ reg.classes.decls, ∀ ct ∈ decl.clauses, ∀ sup ∈ reg.classes.decls,
      sup.id = ct.id → ct.args = [] ∨ ct.args.length = sup.typeParams.length)
    (hroot : reg.root.isSome = true)
    (hbounds : ∀ param ∈ reg.typeParams.toList, ∀ bound ∈ param.bound, bound.vars = []) :
    reg.WellScoped where
  clause_vars := fun _ decl hdecl => hclauses decl (ClassTable.mem_of_find? hdecl)
  method_vars := fun _ decl hdecl => hmethods decl (ClassTable.mem_of_find? hdecl)
  clause_arity := fun _ decl hdecl ct hct sup hsup _ =>
    harity decl (ClassTable.mem_of_find? hdecl) ct hct sup (ClassTable.mem_of_find? hsup)
      (id_of_class? hsup)
  root_isSome := hroot
  array_bound := by
    intro v element hbound
    obtain ⟨param, hparam, hsome⟩ := Option.bind_eq_some_iff.1 hbound
    have hmem : param ∈ reg.typeParams.toList :=
      Array.mem_toList_iff.2 (Array.mem_of_getElem? hparam)
    exact hbounds param hmem (.array element) hsome

theorem boxRegistry_wellScoped : boxRegistry.WellScoped :=
  wellScoped_of_decls (by decide) (by decide) (by decide) rfl (by decide)

/-- The methods of a class under arguments that mention its own parameter, in a hierarchy that goes
round. -/
theorem map_overloads_bindingOf_box :
    boxRegistry.WellScoped ∧
      boxRegistry.class? ⟨1⟩ = some boxDecl ∧
      (boxRegistry.overloads ⟨1⟩ "add").map
          (boxRegistry.bindingOf ⟨⟨1⟩, [.array (.var ⟨0⟩)]⟩).applyToSignature =
        boxRegistry.overloadsOf "add" ⟨⟨1⟩, [.array (.var ⟨0⟩)]⟩ := by
  have hdecl : boxRegistry.class? (⟨⟨1⟩, [.array (.var ⟨0⟩)]⟩ : ClassType).id = some boxDecl := by
    decide
  exact ⟨boxRegistry_wellScoped, hdecl, map_overloads_bindingOf boxRegistry_wellScoped hdecl "add"⟩

end Registry

end MethodOperators
