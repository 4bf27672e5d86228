import MethodOperators.Proofs.Inheritance
import MethodOperators.Proofs.NearestInstance

/-! Generic code is checked once, with its type parameters left open. What was a subtype then stays
one when they are filled in. -/

namespace MethodOperators

theorem ClassType.fits_applyToClass (s : Substitution) {found wanted : ClassType}
    (h : found.fits wanted = true) :
    (s.applyToClass found).fits (s.applyToClass wanted) = true := by
  rw [fits_iff] at h ⊢
  obtain ⟨hid, hargs⟩ := h
  refine ⟨hid, ?_⟩
  rcases hargs with hwanted | hfound | hsame
  · exact .inl (by rw [Substitution.applyToClass, hwanted, List.map_nil])
  · exact .inr (.inl (by rw [Substitution.applyToClass, hfound, List.map_nil]))
  · exact .inr (.inr (by rw [Substitution.applyToClass, Substitution.applyToClass, hsame]))

namespace Registry

variable {reg : Registry}

theorem ScopedClauses.ancestors_applyToClass (h : reg.ScopedClauses) (s : Substitution)
    (order : Order) {ct : ClassType} (hct : reg.ArityFits ct) :
    reg.ancestors order (s.applyToClass ct) = (reg.ancestors order ct).map s.applyToClass := by
  refine h.walk_applyToClass s order [] [ct] fun x hx => ?_
  rwa [List.mem_singleton.1 hx]

theorem ScopedClauses.isSubtype_applyToClass (h : reg.ScopedClauses) (s : Substitution)
    {sub sup : ClassType} (hsub : reg.ArityFits sub) (hsubtype : reg.isSubtype sub sup = true) :
    reg.isSubtype (s.applyToClass sub) (s.applyToClass sup) = true := by
  rw [isSubtype, Bool.or_eq_true] at hsubtype ⊢
  rcases hsubtype with hroot | hfound
  · exact .inl hroot
  · obtain ⟨x, hx, hfits⟩ := List.any_eq_true.1 hfound
    rw [h.ancestors_applyToClass s .breadthFirst hsub]
    exact .inr (List.any_eq_true.2 ⟨_, List.mem_map_of_mem hx, ClassType.fits_applyToClass s hfits⟩)

/-- Let the clauses of a registry be well-scoped. A substitution that is carried out on a class type
is carried out on each of its supertypes, in order, and what the class type may be used as, its
instance may be used as under the same substitution. -/
theorem subtyping_applyToClass (h : reg.ScopedClauses) (s : Substitution) {ct : ClassType}
    (hct : reg.ArityFits ct) :
    reg.supertypes (s.applyToClass ct) = (reg.supertypes ct).map s.applyToClass ∧
      ∀ sup : ClassType, reg.isAssignable sup.toTy ct.toTy = true →
        reg.isAssignable (s.applyToClass sup).toTy (s.applyToClass ct).toTy = true := by
  refine ⟨h.supertypes_applyToClass s hct, ?_⟩
  intro sup hsup
  rw [isAssignable_toTy] at hsup ⊢
  exact h.isSubtype_applyToClass s hct hsup

/-- `Box<T>` is a `Shape<T[]>`. With `Base<T>` for `T`, `Box<Base<T>>` is a `Shape<Base<T>[]>`. -/
theorem subtyping_applyToClass_box :
    let s := Substitution.empty.insert ⟨0⟩ (.nominal ⟨2⟩ [.var ⟨0⟩])
    boxRegistry.ScopedClauses ∧ boxRegistry.ArityFits boxDecl.ownType ∧
      boxRegistry.supertypes (s.applyToClass boxDecl.ownType) =
        (boxRegistry.supertypes boxDecl.ownType).map s.applyToClass ∧
      boxRegistry.isAssignable (.nominal ⟨3⟩ [.array (.nominal ⟨2⟩ [.var ⟨0⟩])])
        (.nominal ⟨1⟩ [.nominal ⟨2⟩ [.var ⟨0⟩]]) = true := by
  intro s
  have hclauses : boxRegistry.ScopedClauses := boxRegistry_wellScoped.toScopedClauses
  have hbox : boxRegistry.ArityFits boxDecl.ownType := by
    intro decl hdecl _
    have hsame : boxRegistry.class? boxDecl.ownType.id = some boxDecl := by decide
    obtain rfl := Option.some.inj (hsame.symm.trans hdecl)
    exact .inr rfl
  have hnearest : boxRegistry.Nearest boxDecl.ownType ⟨3⟩ ⟨⟨3⟩, [.array (.var ⟨0⟩)]⟩ :=
    ⟨1, by decide⟩
  have hshape : boxRegistry.isAssignable (ClassType.toTy ⟨⟨3⟩, [.array (.var ⟨0⟩)]⟩)
      boxDecl.ownType.toTy = true := by
    rw [isAssignable_toTy, isSubtype_iff_nearest]
    exact .inr ⟨_, hnearest, .inr (.inr rfl)⟩
  obtain ⟨hsupertypes, hassignable⟩ := subtyping_applyToClass hclauses s hbox
  exact ⟨hclauses, hbox, hsupertypes, hassignable ⟨⟨3⟩, [.array (.var ⟨0⟩)]⟩ hshape⟩

end Registry

end MethodOperators
