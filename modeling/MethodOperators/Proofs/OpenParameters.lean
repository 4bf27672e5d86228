import MethodOperators.Proofs.FirstMatch
import MethodOperators.Proofs.Substitutability

/-! The parameters that are left open in the methods of a class and in the results of calls. A raw
class type erases those of its class, but leaves open what occurs in a bound that is an array. -/

namespace MethodOperators

open Relation (ReflTransGen)

namespace Registry

variable {reg : Registry}

/-! ### Raw class types -/

/-- Of all bounds, arrays alone leave something open when a parameter is erased. -/
theorem mem_vars_erasure?_iff {w v : TypeVar} {root : ClassId} (hroot : reg.root = some root) :
    v ∈ ((reg.erasure? w).getD (.var w)).vars ↔
      ∃ element, reg.bound? w = some (.array element) ∧ v ∈ element.vars := by
  cases hbound : reg.bound? w with
  | none => simp [erasure?, hbound, hroot, Ty.simple, Ty.vars, Ty.varsAll]
  | some bound =>
    cases bound with
    | array element => simp [erasure?, hbound, Ty.vars]
    | nominal id args => simp [erasure?, hbound, Ty.simple, Ty.vars, Ty.varsAll]
    | primitive kind => simp [erasure?, hbound, hroot, Ty.simple, Ty.vars, Ty.varsAll]
    | var u => simp [erasure?, hbound, hroot, Ty.simple, Ty.vars, Ty.varsAll]
    | null => simp [erasure?, hbound, hroot, Ty.simple, Ty.vars, Ty.varsAll]

theorem mem_vars_apply_erasing_iff {root : ClassId} (hroot : reg.root = some root)
    {params : List TypeVar} {t : Ty} (ht : ∀ w ∈ t.vars, w ∈ params) {v : TypeVar} :
    v ∈ ((reg.erasing params).apply t).vars ↔
      ∃ w ∈ t.vars, ∃ element, reg.bound? w = some (.array element) ∧ v ∈ element.vars := by
  rw [Substitution.mem_vars_apply]
  refine exists_congr fun w => and_congr_right fun hw => ?_
  rw [Substitution.image, find?_erasing (ht w hw)]
  exact mem_vars_erasure?_iff hroot

/-- Let there be a root, and let a type mention parameters of a declared class only. What is left
open of it under the raw type of the class is what the bounds of these parameters mention that are
arrays. So all is closed just when no parameter of the type is bounded by an array in which a
parameter occurs. -/
theorem vars_apply_raw {root : ClassId} (hroot : reg.root = some root) {id : ClassId}
    {decl : ClassDecl} (hdecl : reg.class? id = some decl) {t : Ty}
    (ht : ∀ v ∈ t.vars, v ∈ decl.typeParams) :
    (∀ v, v ∈ ((reg.bindingOf (.simple id)).apply t).vars ↔
      ∃ w ∈ t.vars, ∃ element, reg.bound? w = some (.array element) ∧ v ∈ element.vars) ∧
    (((reg.bindingOf (.simple id)).apply t).vars = [] ↔
      ∀ w ∈ t.vars, ∀ element, reg.bound? w = some (.array element) → element.vars = []) := by
  have hraw : reg.bindingOf (.simple id) = reg.erasing decl.typeParams := bindingOf_of_raw hdecl rfl
  rw [hraw]
  refine ⟨fun v => mem_vars_apply_erasing_iff hroot ht, ?_⟩
  simp only [List.eq_nil_iff_forall_not_mem, mem_vars_apply_erasing_iff hroot ht]
  constructor
  · intro hclosed w hw element hbound v hv
    exact hclosed v ⟨w, hw, element, hbound, hv⟩
  · rintro hbounds v ⟨w, hw, element, hbound, hv⟩
    exact hbounds w hw element hbound v hv

/-- A class `Grid<U, T, S, N>` where `T` is bounded by `U[]`, `S` by `Grid<U, T, S, N>` and `N` by
`U`. -/
def gridDecl : ClassDecl where
  id := ⟨1⟩
  name := "Grid"
  typeParams := [⟨0⟩, ⟨1⟩, ⟨2⟩, ⟨3⟩]

/-- A registry of `Grid` and a root. -/
def gridRegistry : Registry :=
  { Registry.empty ⟨0⟩ with
    classes := (ClassTable.empty.declare { id := ⟨0⟩, name := "Object" }).declare gridDecl
    typeParams := #[⟨"U", none⟩, ⟨"T", some (.array (.var ⟨0⟩))⟩,
      ⟨"S", some (.nominal ⟨1⟩ [.var ⟨0⟩, .var ⟨1⟩, .var ⟨2⟩, .var ⟨3⟩])⟩,
      ⟨"N", some (.var ⟨0⟩)⟩]
    root := some ⟨0⟩ }

/-- `Grid<U, S, N[], N>` mentions no parameter that is bounded by an array, and raw `Grid` closes
it. -/
theorem vars_apply_raw_grid :
    gridRegistry.root = some ⟨0⟩ ∧ gridRegistry.class? ⟨1⟩ = some gridDecl ∧
      ((gridRegistry.bindingOf (.simple ⟨1⟩)).apply
        (.nominal ⟨1⟩ [.var ⟨0⟩, .var ⟨2⟩, .array (.var ⟨3⟩), .var ⟨3⟩])).vars = [] := by
  have hroot : gridRegistry.root = some ⟨0⟩ := rfl
  have hdecl : gridRegistry.class? ⟨1⟩ = some gridDecl := by decide
  have hbounds : ∀ w ∈ (Ty.nominal ⟨1⟩ [.var ⟨0⟩, .var ⟨2⟩, .array (.var ⟨3⟩), .var ⟨3⟩]).vars,
      ∀ element, gridRegistry.bound? w = some (.array element) → element.vars = [] := by
    intro w hw element hbound
    obtain rfl | rfl | rfl : w = ⟨0⟩ ∨ w = ⟨2⟩ ∨ w = ⟨3⟩ := by
      simpa [Ty.vars, Ty.varsAll] using hw
    · cases hbound
    · cases hbound
    · cases hbound
  exact ⟨hroot, hdecl, (vars_apply_raw hroot hdecl (by decide)).2.2 hbounds⟩

/-- Raw `Grid` puts `U[]` for `T`, so that `U` is left open. -/
theorem vars_apply_raw_ne_nil :
    gridRegistry.root = some ⟨0⟩ ∧ gridRegistry.class? ⟨1⟩ = some gridDecl ∧
      gridDecl.isGeneric = true ∧ (∀ v ∈ (Ty.var ⟨1⟩).vars, v ∈ gridDecl.typeParams) ∧
      ¬ ((gridRegistry.bindingOf (.simple ⟨1⟩)).apply (.var ⟨1⟩)).vars = [] := by
  refine ⟨rfl, by decide, rfl, by decide, ?_⟩
  decide

/-! ### One step up, and many -/

theorem ScopedClauses.mem_vars_of_mem_image (h : reg.ScopedClauses) {ct : ClassType}
    (hct : reg.ArityFits ct) {decl : ClassDecl} (hdecl : reg.class? ct.id = some decl)
    {w v : TypeVar} (hw : w ∈ decl.typeParams) (hv : v ∈ ((reg.bindingOf ct).image w).vars) :
    v ∈ ct.vars := by
  by_cases hraw : ct.args = []
  · rw [bindingOf_of_raw hdecl hraw, h.vars_image_erasing hw] at hv
    exact absurd hv List.not_mem_nil
  · have hgeneric : decl.isGeneric = true := by
      simpa [ClassDecl.isGeneric] using List.ne_nil_of_mem hw
    have hlength := (hct decl hdecl hgeneric).resolve_left hraw
    obtain ⟨t, ht, hfind⟩ := Substitution.exists_find?_ofArgs hlength.symm hw
    rw [bindingOf_of_args hdecl hraw, Substitution.image, hfind, Option.getD_some] at hv
    exact List.mem_flatMap.2 ⟨t, ht, hv⟩

/-- One step up the hierarchy opens no parameter. -/
theorem ScopedClauses.mem_vars_of_step (h : reg.ScopedClauses) {ct sup : ClassType}
    (hct : reg.ArityFits ct) (hstep : reg.Step ct sup) {v : TypeVar} (hv : v ∈ sup.vars) :
    v ∈ ct.vars := by
  obtain ⟨decl, hdecl, ⟨clause, hclause, rfl⟩ | ⟨root, -, rfl⟩⟩ := step_iff.1 hstep
  · obtain ⟨w, hw, hv⟩ := Substitution.mem_vars_applyToClass.1 hv
    have hparam := h.clause_vars ct.id decl hdecl clause hclause w hw
    exact h.mem_vars_of_mem_image hct hdecl hparam hv
  · exact absurd hv List.not_mem_nil

theorem WellScoped.mem_vars_of_reaches (h : reg.WellScoped) {ct x : ClassType}
    (hct : reg.ArityFits ct) (hreach : ReflTransGen reg.Step ct x) {v : TypeVar}
    (hv : v ∈ x.vars) : v ∈ ct.vars := by
  induction hreach with
  | refl => exact hv
  | tail hreach hstep ih =>
    exact ih (h.mem_vars_of_step (h.arityFits_of_reaches hct hreach) hstep hv)

/-! ### Methods and results -/

theorem WellScoped.mem_vars_of_mem_ownOverloads (h : reg.WellScoped) {ct : ClassType}
    (hct : reg.ArityFits ct) {name : String} {sig : Signature Ty}
    (hsig : sig ∈ reg.ownOverloads name ct) {v : TypeVar} (hv : v ∈ sig.vars) : v ∈ ct.vars := by
  cases hdecl : reg.class? ct.id with
  | none => simp [ownOverloads, hdecl] at hsig
  | some decl =>
    simp only [ownOverloads, hdecl] at hsig
    obtain ⟨m, hm, rfl⟩ := List.mem_map.1 hsig
    obtain ⟨w, hw, hv⟩ := Substitution.mem_vars_applyToSignature.1 hv
    have hparam := h.method_vars ct.id decl hdecl m (List.mem_of_mem_filter hm) w hw
    exact h.mem_vars_of_mem_image hct hdecl hparam hv

theorem arityFits_ownType {id : ClassId} {decl : ClassDecl} (hdecl : reg.class? id = some decl) :
    reg.ArityFits decl.ownType := by
  intro decl' hdecl' _
  obtain rfl := Option.some.inj ((class?_ownType hdecl).symm.trans hdecl')
  exact .inr (List.length_map _)

theorem vars_ownType (decl : ClassDecl) : decl.ownType.vars = decl.typeParams := by
  simp [ClassDecl.ownType, ClassType.vars, List.flatMap_map, Ty.vars]

theorem WellScoped.mem_typeParams_of_mem_overloads (h : reg.WellScoped) {id : ClassId}
    {decl : ClassDecl} (hdecl : reg.class? id = some decl) {name : String} {sig : Signature Ty}
    (hsig : sig ∈ reg.overloads id name) {v : TypeVar} (hv : v ∈ sig.vars) :
    v ∈ decl.typeParams := by
  rw [overloads_eq_overloadsOf hdecl, overloadsOf, List.mem_flatMap] at hsig
  obtain ⟨x, hx, hsig⟩ := hsig
  have hown := arityFits_ownType hdecl
  have hreach := reaches_of_mem_ancestors hx
  have hopen := h.mem_vars_of_mem_ownOverloads (h.arityFits_of_reaches hown hreach) hsig hv
  rw [← vars_ownType decl]
  exact h.mem_vars_of_reaches hown hreach hopen

theorem exists_sig_of_eval_resolveKnown {receiver ty : Ty} {name : String} {args : List Ty}
    (h : (resolveKnown (S := classTypes) receiver name args).eval reg.answer =
      .ok (.resolved ty)) :
    ∃ ct decl, receiver = ct.toTy ∧ reg.class? ct.id = some decl ∧
      ∃ sig ∈ reg.overloads ct.id name, (reg.bindingOf ct).apply sig.result = ty := by
  by_cases hdecl : ∃ ct, receiver.asClass? = some ct ∧ reg.contains ct.id = true
  · obtain ⟨ct, hclass, hcontains⟩ := hdecl
    obtain ⟨decl, hdecl⟩ := Option.isSome_iff_exists.1 hcontains
    obtain rfl := Ty.eq_toTy_of_asClass? hclass
    rw [eval_resolveKnown_of_declared hcontains] at h
    refine ⟨ct, decl, rfl, hdecl, ?_⟩
    cases hfind : (reg.overloads ct.id name).find? fun sig =>
        reg.Takes args ((reg.bindingOf ct).applyToSignature sig) with
    | none =>
      rw [hfind] at h
      cases h
    | some sig =>
      rw [hfind] at h
      exact ⟨sig, List.mem_of_find?_eq_some hfind, Resolution.resolved.inj (Except.ok.inj h)⟩
  · rw [eval_resolveKnown_of_undeclared (answer_declaration_eq_none hdecl)] at h
    cases h

theorem exists_sig_of_outcome_resolve {receiver ty : Ty} {name : String}
    {args : List (Option Ty)} {flags : Flags} {asked : List (Question classTypes)}
    (h : ((resolve (S := classTypes) (some receiver) name args).run (reg.host flags)
      asked).outcome = .ok (.resolved ty)) :
    ∃ ct decl, receiver = ct.toTy ∧ reg.class? ct.id = some decl ∧
      ∃ sig ∈ reg.overloads ct.id name, (reg.bindingOf ct).apply sig.result = ty := by
  unfold resolve at h
  split at h
  · rename_i receiver' args' hreceiver hargs
    obtain rfl := Option.some.inj hreceiver
    split at h
    · cases h
    · cases hflag : flags.isRaised reg.flag with
      | true =>
        rw [outcome_resolveKnown_of_raised hflag] at h
        cases h
      | false =>
        rw [outcome_run_host hflag] at h
        exact exists_sig_of_eval_resolveKnown h
  · cases h

/-- In a well-scoped registry the methods of a declared class mention no parameters but those of the
class, the inherited methods included. So a call on a receiver in which no parameter occurs, and
which is raw or has the right number of arguments if it is a class type, has a result in which no
parameter occurs. -/
theorem overloads_and_results_scoped (h : reg.WellScoped) :
    (∀ id decl name, reg.class? id = some decl → ∀ sig ∈ reg.overloads id name,
      ∀ v ∈ sig.vars, v ∈ decl.typeParams) ∧
    (∀ receiver : Ty, receiver.vars = [] →
      (∀ ct, receiver.asClass? = some ct → reg.ArityFits ct) →
      ∀ (name : String) (args : List (Option Ty)) (flags : Flags)
        (asked : List (Question classTypes)) (ty : Ty),
        ((resolve (S := classTypes) (some receiver) name args).run (reg.host flags)
          asked).outcome = .ok (.resolved ty) → ty.vars = []) := by
  refine ⟨fun id decl name hdecl sig hsig v hv =>
    h.mem_typeParams_of_mem_overloads hdecl hsig hv, ?_⟩
  intro receiver hclosed harity name args flags asked ty hty
  obtain ⟨ct, decl, rfl, hdecl, sig, hsig, rfl⟩ := exists_sig_of_outcome_resolve hty
  refine List.eq_nil_iff_forall_not_mem.2 fun v hv => ?_
  obtain ⟨w, hw, hv⟩ := Substitution.mem_vars_apply.1 hv
  have hparam : w ∈ decl.typeParams :=
    h.mem_typeParams_of_mem_overloads hdecl hsig (List.mem_append_right _ hw)
  have hopen : v ∈ ct.vars :=
    h.mem_vars_of_mem_image (harity ct rfl) hdecl hparam hv
  rw [ClassType.toTy, Ty.vars, Ty.varsAll_eq_flatMap] at hclosed
  rw [ClassType.vars, hclosed] at hopen
  exact List.not_mem_nil hopen

/-- On raw `Shape` a `Base` goes to the method of raw `Box`, since that of `Shape` takes an array.
Both classes have erased their parameters by then. -/
theorem overloads_and_results_scoped_shape :
    boxRegistry.WellScoped ∧
      (∀ sig ∈ boxRegistry.overloads ⟨3⟩ "add", ∀ v ∈ sig.vars, v ∈ shapeDecl.typeParams) ∧
      ((resolve (S := classTypes) (some (.simple ⟨3⟩)) "add" [some (.simple ⟨2⟩)]).run
        (boxRegistry.host Flags.empty.fresh.2) []).outcome =
          .ok (.resolved (.nominal ⟨1⟩ [.simple ⟨0⟩])) ∧
      (Ty.nominal ⟨1⟩ [.simple ⟨0⟩]).vars = [] := by
  have hdecl : boxRegistry.class? (ClassType.simple ⟨3⟩).id = some shapeDecl := by decide
  have hsupertypes : boxRegistry.supertypes shapeDecl.ownType = [.simple ⟨1⟩, .simple ⟨0⟩] := by
    decide
  have hshape : boxRegistry.ownOverloads "add" shapeDecl.ownType =
      [⟨[.array (.var ⟨1⟩)], .var ⟨1⟩⟩] := by
    decide
  have hbox : boxRegistry.ownOverloads "add" (.simple ⟨1⟩) =
      [⟨[.simple ⟨0⟩], .nominal ⟨1⟩ [.simple ⟨0⟩]⟩] := by
    decide
  have hfind : (boxRegistry.overloads (ClassType.simple ⟨3⟩).id "add").find? (fun sig =>
      boxRegistry.Takes [.simple ⟨2⟩]
        ((boxRegistry.bindingOf (.simple ⟨3⟩)).applyToSignature sig)) =
      some ⟨[.simple ⟨0⟩], .nominal ⟨1⟩ [.simple ⟨0⟩]⟩ := by
    rw [overloads_eq_overloadsOf hdecl, overloadsOf_eq_append, hshape, hsupertypes,
      walk_cons_of_notMem (by decide), List.flatMap_cons, hbox]
    rw [List.singleton_append, List.singleton_append, List.find?_cons_of_neg (by decide),
      List.find?_cons_of_pos (by decide)]
  have heval : (resolveKnown (S := classTypes) (ClassType.simple ⟨3⟩).toTy "add"
      [.simple ⟨2⟩]).eval boxRegistry.answer = .ok (.resolved (.nominal ⟨1⟩ [.simple ⟨0⟩])) := by
    rw [eval_resolveKnown_of_declared (by decide), hfind]
    rfl
  have houtcome : ((resolve (S := classTypes) (some (.simple ⟨3⟩)) "add"
      [some (.simple ⟨2⟩)]).run (boxRegistry.host Flags.empty.fresh.2) []).outcome =
        .ok (.resolved (.nominal ⟨1⟩ [.simple ⟨0⟩])) := by
    rw [outcome_run_host (by decide)]
    exact heval
  obtain ⟨hmethods, hresults⟩ := overloads_and_results_scoped boxRegistry_wellScoped
  have hraw : ∀ ct, (Ty.simple ⟨3⟩).asClass? = some ct → boxRegistry.ArityFits ct := by
    intro ct hct _ _ _
    obtain rfl := Option.some.inj hct
    exact .inl rfl
  exact ⟨boxRegistry_wellScoped, hmethods ⟨3⟩ shapeDecl "add" hdecl, houtcome,
    hresults _ rfl hraw _ _ _ _ _ houtcome⟩

end Registry

end MethodOperators
