import MethodOperators.Proofs.Applicability
import MethodOperators.Proofs.Inheritance
import MethodOperators.Proofs.NearestInstance

/-! A call that a supertype of the receiver understands is understood by the receiver. A class that
is reached at several argument lists counts at one of them only, so there must be no such
supertypes. -/

namespace MethodOperators

open Relation (ReflTransGen)

namespace Registry

variable {reg : Registry}

/-! ### Instances of what a declaration reaches -/

theorem WellScoped.reaches_applyToClass (h : reg.WellScoped) (s : Substitution) {ct x : ClassType}
    (hct : reg.ArityFits ct) (hreach : ReflTransGen reg.Step ct x) :
    ReflTransGen reg.Step (s.applyToClass ct) (s.applyToClass x) := by
  induction hreach using ReflTransGen.head_induction_on with
  | refl => exact .refl
  | @head ct sup hstep _ ih =>
    have hmap : reg.Step (s.applyToClass ct) (s.applyToClass sup) := by
      rw [Step, h.supertypes_applyToClass s hct]
      exact List.mem_map_of_mem hstep
    exact .head hmap (ih (h.arityFits_of_step hstep))

theorem WellScoped.arityFits_of_reaches (h : reg.WellScoped) {ct x : ClassType}
    (hct : reg.ArityFits ct) (hreach : ReflTransGen reg.Step ct x) : reg.ArityFits x := by
  cases hreach with
  | refl => exact hct
  | tail _ hstep => exact h.arityFits_of_step hstep

theorem exists_class?_of_reaches {ct x : ClassType} (hreach : ReflTransGen reg.Step ct x)
    {decl : ClassDecl} (hdecl : reg.class? x.id = some decl) :
    ∃ decl', reg.class? ct.id = some decl' := by
  rcases hreach.cases_head with rfl | ⟨sup, hstep, -⟩
  · exact ⟨decl, hdecl⟩
  · obtain ⟨decl', hdecl', -⟩ := step_iff.1 hstep
    exact ⟨decl', hdecl'⟩

theorem step_of_step_ownType {ct sup : ClassType} {decl : ClassDecl}
    (hdecl : reg.class? ct.id = some decl) (hstep : reg.Step decl.ownType sup) :
    reg.Step ct ((reg.bindingOf ct).applyToClass sup) := by
  rw [Step, supertypes_ownType hdecl] at hstep
  rw [Step, supertypes_of_declared hdecl]
  rcases List.mem_append.1 hstep with hclause | hroot
  · exact List.mem_append_left _ (List.mem_map_of_mem hclause)
  · obtain ⟨root, hmem, rfl⟩ := List.mem_map.1 hroot
    exact List.mem_append_right _ (List.mem_map_of_mem hmem)

/-- What a declaration reaches from its own parameters, a class type of this declaration reaches
under its arguments, and there it finds the same methods under these arguments. -/
theorem WellScoped.exists_instance (h : reg.WellScoped) {ct x : ClassType} {decl : ClassDecl}
    (hdecl : reg.class? ct.id = some decl) (hx : ReflTransGen reg.Step decl.ownType x)
    (name : String) :
    ∃ y, ReflTransGen reg.Step ct y ∧ y.id = x.id ∧
      reg.ownOverloads name y =
        (reg.ownOverloads name x).map (reg.bindingOf ct).applyToSignature := by
  rcases hx.cases_head with rfl | ⟨sup, hstep, hrest⟩
  · -- A raw class type is no instance of the own type, and has its methods all the same.
    refine ⟨ct, .refl, (id_of_class? hdecl).symm, ?_⟩
    rw [ownOverloads_ownType hdecl, List.map_map]
    simp only [ownOverloads, hdecl]
    rfl
  · have hsup : reg.ArityFits sup := h.arityFits_of_step hstep
    have hx : reg.ArityFits x := h.arityFits_of_reaches hsup hrest
    have hreach := (h.reaches_applyToClass (reg.bindingOf ct) hsup hrest).head
      (step_of_step_ownType hdecl hstep)
    exact ⟨_, hreach, rfl, h.ownOverloads_applyToClass _ hx name⟩

/-! ### The methods of a class type -/

theorem WellScoped.exists_reaches_of_mem_overloads (h : reg.WellScoped) {ct : ClassType}
    {decl : ClassDecl} (hdecl : reg.class? ct.id = some decl) {name : String}
    {sig : Signature Ty} (hsig : sig ∈ reg.overloads ct.id name) :
    ∃ x, ReflTransGen reg.Step ct x ∧
      (reg.bindingOf ct).applyToSignature sig ∈ reg.ownOverloads name x := by
  rw [overloads_eq_overloadsOf hdecl, overloadsOf, List.mem_flatMap] at hsig
  obtain ⟨x, hx, hsig⟩ := hsig
  obtain ⟨y, hreach, -, hown⟩ := h.exists_instance hdecl (reaches_of_mem_ancestors hx) name
  exact ⟨y, hreach, hown ▸ List.mem_map_of_mem hsig⟩

theorem WellScoped.exists_mem_overloads_of_reaches (h : reg.WellScoped) {ct x : ClassType}
    (hone : reg.OneInstance ct x.id) (hreach : ReflTransGen reg.Step ct x) {name : String}
    {sig : Signature Ty} (hsig : sig ∈ reg.ownOverloads name x) :
    ∃ decl, reg.class? ct.id = some decl ∧
      ∃ sig' ∈ reg.overloads ct.id name, (reg.bindingOf ct).applyToSignature sig' = sig := by
  obtain ⟨decl, hdecl⟩ : ∃ decl, reg.class? ct.id = some decl := by
    cases hx : reg.class? x.id with
    | none => simp [ownOverloads, hx] at hsig
    | some decl => exact exists_class?_of_reaches hreach hx
  -- A walk from the own type meets some instance of the class of `x`, and under the arguments of
  -- `ct` this can only be `x` itself.
  have hmet : x.id ∈ (reg.ancestors .depthFirst decl.ownType).map ClassType.id := by
    have hclass : ReflTransGen reg.Extends ct.id x.id := reaches_id hreach
    rw [id_mem_ancestors_iff, ClassDecl.ownType, id_of_class? hdecl]
    exact hclass
  obtain ⟨y, hy, hyid⟩ := List.mem_map.1 hmet
  obtain ⟨z, hz, hzid, hown⟩ := h.exists_instance hdecl (reaches_of_mem_ancestors hy) name
  have hid : z.id = x.id := hzid.trans hyid
  have hzx : z = x := ClassType.eq_of_id_of_args hid (hone z x hz hreach hid rfl)
  rw [← hzx, hown] at hsig
  obtain ⟨sig', hsig', rfl⟩ := List.mem_map.1 hsig
  refine ⟨decl, hdecl, sig', ?_, rfl⟩
  rw [overloads_eq_overloadsOf hdecl, overloadsOf]
  exact List.mem_flatMap.2 ⟨y, hy, hsig'⟩

/-! ### Calls -/

/-- In a well-scoped registry, let no class be reached from a class type at two argument lists. Then
each call that resolves on one of its supertypes resolves on it. -/
theorem resolve_of_resolve_supertype (h : reg.WellScoped) {sub sup : ClassType}
    (hone : ∀ id, reg.OneInstance sub id) (hreach : ReflTransGen reg.Step sub sup)
    (flags : Flags) (asked : List (Question classTypes)) (name : String)
    (args : List (Option Ty))
    (hsup : ∃ ty, ((resolve (S := classTypes) (some sup.toTy) name args).run (reg.host flags)
      asked).outcome = .ok (.resolved ty)) :
    ∃ ty, ((resolve (S := classTypes) (some sub.toTy) name args).run (reg.host flags)
      asked).outcome = .ok (.resolved ty) := by
  rw [outcome_resolve_iff] at hsup ⊢
  obtain ⟨hflag, known, hknown, hname, hcontains, sig, hsig, htakes⟩ := hsup
  obtain ⟨decl, hdecl⟩ := Option.isSome_iff_exists.1 hcontains
  obtain ⟨x, hx, hown⟩ := h.exists_reaches_of_mem_overloads hdecl hsig
  obtain ⟨decl', hdecl', sig', hsig', hsame⟩ :=
    h.exists_mem_overloads_of_reaches (hone x.id) (hreach.trans hx) hown
  have hcontains' : reg.contains sub.id = true := Option.isSome_iff_exists.2 ⟨decl', hdecl'⟩
  exact ⟨hflag, known, hknown, hname, hcontains', sig', hsig', hsame ▸ htakes⟩

theorem mem_of_reaches_of_closed {cts : List ClassType}
    (hclosed : ∀ x ∈ cts, ∀ y ∈ reg.supertypes x, y ∈ cts) {ct x : ClassType} (hct : ct ∈ cts)
    (hx : ReflTransGen reg.Step ct x) : x ∈ cts := by
  induction hx with
  | refl => exact hct
  | tail _ hstep ih => exact hclosed _ ih _ hstep

/-- If some class types, with each class at one argument list, include all their supertypes, then
nothing is reached from them at two argument lists. -/
theorem oneInstance_of_closed {cts : List ClassType} (hnodup : (cts.map ClassType.id).Nodup)
    (hclosed : ∀ x ∈ cts, ∀ y ∈ reg.supertypes x, y ∈ cts) {ct : ClassType} (hct : ct ∈ cts)
    (id : ClassId) : reg.OneInstance ct id := by
  intro x y hx hy hxid hyid
  have hxmem := mem_of_reaches_of_closed hclosed hct hx
  have hymem := mem_of_reaches_of_closed hclosed hct hy
  rw [List.inj_on_of_nodup_map hnodup hxmem hymem (hxid.trans hyid.symm)]

/-- A class `Pair<T>` that extends `Base<T>` and implements `Shape<T[]>`, which `Base<T>` implements
as well, and an interface `Shape<V>` with a method. -/
def pairRegistry : Registry :=
  { Registry.empty ⟨0⟩ with
    classes := [{ id := ⟨0⟩, name := "Object" },
      { id := ⟨1⟩, name := "Pair", typeParams := [⟨0⟩], superclass := some ⟨⟨2⟩, [.var ⟨0⟩]⟩,
        interfaces := [⟨⟨3⟩, [.array (.var ⟨0⟩)]⟩] },
      { id := ⟨2⟩, name := "Base", typeParams := [⟨1⟩],
        interfaces := [⟨⟨3⟩, [.array (.var ⟨1⟩)]⟩] },
      { id := ⟨3⟩, name := "Shape", modifiers := ⟨true⟩, typeParams := [⟨2⟩],
        methods := [⟨"add", ⟨[.var ⟨2⟩], .var ⟨2⟩⟩, ⟨false⟩⟩] }].foldl ClassTable.declare .empty
    typeParams := #[⟨"T", none⟩, ⟨"U", none⟩, ⟨"V", none⟩]
    root := some ⟨0⟩ }

/-- `Shape<int[]>` is above `Pair<int>` in two ways, and both understand `add`. -/
theorem resolve_of_resolve_supertype_pair :
    pairRegistry.WellScoped ∧
      (∀ id, pairRegistry.OneInstance ⟨⟨1⟩, [.primitive .int]⟩ id) ∧
      ReflTransGen pairRegistry.Step ⟨⟨1⟩, [.primitive .int]⟩
        ⟨⟨3⟩, [.array (.primitive .int)]⟩ ∧
      (∃ ty, ((resolve (S := classTypes) (some (.nominal ⟨3⟩ [.array (.primitive .int)])) "add"
        [some (.array (.primitive .int))]).run (pairRegistry.host .empty) []).outcome =
          .ok (.resolved ty)) ∧
      ∃ ty, ((resolve (S := classTypes) (some (.nominal ⟨1⟩ [.primitive .int])) "add"
        [some (.array (.primitive .int))]).run (pairRegistry.host .empty) []).outcome =
          .ok (.resolved ty) := by
  have hscoped : pairRegistry.WellScoped :=
    wellScoped_of_decls (by decide) (by decide) (by decide) rfl (by decide)
  have hnodup : (List.map ClassType.id [⟨⟨1⟩, [.primitive .int]⟩, ⟨⟨2⟩, [.primitive .int]⟩,
      ⟨⟨3⟩, [.array (.primitive .int)]⟩, .simple ⟨0⟩]).Nodup := by
    decide
  have hone (id : ClassId) : pairRegistry.OneInstance ⟨⟨1⟩, [.primitive .int]⟩ id :=
    oneInstance_of_closed hnodup (by decide) (by decide) id
  have hshape : pairRegistry.OneInstance ⟨⟨3⟩, [.array (.primitive .int)]⟩ ⟨3⟩ :=
    oneInstance_of_closed hnodup (by decide) (by decide) ⟨3⟩
  have hstep : pairRegistry.Step ⟨⟨1⟩, [.primitive .int]⟩ ⟨⟨3⟩, [.array (.primitive .int)]⟩ := by
    rw [Step]
    decide
  have hown : ⟨[.array (.primitive .int)], .array (.primitive .int)⟩ ∈
      pairRegistry.ownOverloads "add" ⟨⟨3⟩, [.array (.primitive .int)]⟩ := by
    decide
  obtain ⟨-, -, sig, hsig, hsame⟩ := hscoped.exists_mem_overloads_of_reaches hshape .refl hown
  have htakes : pairRegistry.Takes [.array (.primitive .int)]
      ⟨[.array (.primitive .int)], .array (.primitive .int)⟩ :=
    .cons (by decide) .nil
  have hsup : ∃ ty, ((resolve (S := classTypes)
      (some (ClassType.toTy ⟨⟨3⟩, [.array (.primitive .int)]⟩)) "add"
      [some (.array (.primitive .int))]).run (pairRegistry.host .empty) []).outcome =
        .ok (.resolved ty) :=
    outcome_resolve_iff.2 ⟨rfl, _, rfl, by decide, by decide, sig, hsig, hsame ▸ htakes⟩
  exact ⟨hscoped, hone, .single hstep, hsup,
    resolve_of_resolve_supertype hscoped hone (.single hstep) .empty [] "add" _ hsup⟩

end Registry

end MethodOperators
