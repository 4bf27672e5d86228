import MethodOperators.Proofs.BoundedParameters

/-! The root takes every reference, and the null reference may be used for every reference. -/

namespace MethodOperators

namespace Registry

variable {reg : Registry} {root : ClassId}

/-! ### Single answers of the root -/

theorem isSubtype_root (hroot : reg.root = some root) (sub : ClassType) (params : List Ty) :
    reg.isSubtype sub ⟨root, params⟩ = true := by
  simp [isSubtype, isRoot, hroot]

theorem assignableWithin_root_of_unbounded (hroot : reg.root = some root) {source : Ty}
    (href : source.isReference = true) (hbound : reg.boundOf? source = none) (n : Nat) :
    reg.assignableWithin (n + 1) (.simple root) source = true := by
  cases source with
  | primitive kind => cases href
  | null => simp [assignableWithin, Ty.simple, Ty.void, Ty.isReference]
  | array element => simp [assignableWithin, Ty.simple, Ty.void, isRoot, hroot]
  | nominal id args =>
    have hsubtype := isSubtype_root hroot ⟨id, args⟩ []
    simp [assignableWithin, Ty.simple, Ty.void, hsubtype]
  | var v =>
    have hnone : reg.bound? v = none := hbound
    simp [assignableWithin, Ty.simple, Ty.void, hnone, Ty.asClass?, isRoot, hroot]

theorem assignableWithin_root_var (root : ClassId) {v : TypeVar} {bound : Ty}
    (hbound : reg.bound? v = some bound) (n : Nat) :
    reg.assignableWithin (n + 1) (.simple root) (.var v) =
      reg.assignableWithin n (.simple root) bound := by
  have hne : Ty.simple root ≠ .var v := nofun
  rw [assignableWithin_succ, reduct?_var hbound hne rfl nofun]

theorem assignableWithin_root_primitive_iff (hroot : reg.root = some root) {n : Nat}
    {kind : Primitive} :
    reg.assignableWithin (n + 1) (.simple root) (.primitive kind) = true ↔
      0 < n ∧ kind ≠ .void ∧ (reg.box? kind).isSome = true := by
  by_cases hvoid : kind = .void
  · subst hvoid
    simp [assignableWithin, Ty.void]
  · cases hbox : reg.box? kind with
    | none => simp [assignableWithin, Ty.simple, Ty.void, hvoid, hbox]
    | some box =>
      have hnext : reg.reduct? (.simple root) (.primitive kind) =
          some (.simple root, .simple box) := by
        simp [reduct?, Ty.simple, Ty.void, hvoid, hbox]
      rw [assignableWithin_succ, hnext]
      cases n with
      | zero => simp [assignableWithin]
      | succ n =>
        have hclass : reg.assignableWithin (n + 1) (.simple root) (.simple box) = true :=
          assignableWithin_root_of_unbounded hroot rfl rfl n
        simp [hclass, hvoid]

/-! ### The root under a limit -/

theorem followBounds?_var_zero {v : TypeVar} {bound : Ty} (hbound : reg.bound? v = some bound) :
    reg.followBounds? 0 (.var v) = none := by
  simp [followBounds?, boundOf?, hbound]

theorem followBounds?_var_succ {v : TypeVar} {bound : Ty} (hbound : reg.bound? v = some bound)
    (n : Nat) : reg.followBounds? (n + 1) (.var v) = reg.followBounds? n bound := by
  simp [followBounds?, boundOf?, hbound]

theorem exists_var_of_boundOf {source bound : Ty} (h : reg.boundOf? source = some bound) :
    ∃ v, source = .var v ∧ reg.bound? v = some bound := by
  cases source with
  | var v => exact ⟨v, rfl, h⟩
  | primitive | nominal | array | null => cases h

theorem assignableWithin_root_iff_of_unbounded (hroot : reg.root = some root) {source : Ty}
    (hbound : reg.boundOf? source = none) (n : Nat) :
    reg.assignableWithin (n + 1) (.simple root) source = true ↔
      (∃ last, reg.followBounds? n source = some last ∧ last.isReference = true) ∨
      ∃ m < n, ∃ kind, reg.followBounds? m source = some (.primitive kind) ∧ kind ≠ .void ∧
        (reg.box? kind).isSome = true := by
  simp only [followBounds?_of_boundOf_none hbound, Option.some.injEq, exists_eq_left']
  cases source with
  | primitive kind =>
    rw [assignableWithin_root_primitive_iff hroot]
    constructor
    · rintro ⟨hn, hkind⟩
      exact .inr ⟨0, hn, kind, rfl, hkind⟩
    · rintro (href | ⟨m, hm, l, hl, hkind⟩)
      · cases href
      · obtain rfl := Ty.primitive.inj hl
        exact ⟨Nat.zero_lt_of_lt hm, hkind⟩
  | nominal | var | array | null =>
    exact iff_of_true (assignableWithin_root_of_unbounded hroot rfl hbound n) (.inl rfl)

/-- The root takes a type whose bounds end in a reference within the limit, or in a primitive type
with a box before the limit is reached. -/
theorem assignableWithin_root_iff (hroot : reg.root = some root) {n : Nat} {source : Ty} :
    reg.assignableWithin (n + 1) (.simple root) source = true ↔
      (∃ last, reg.followBounds? n source = some last ∧ last.isReference = true) ∨
      ∃ m < n, ∃ kind, reg.followBounds? m source = some (.primitive kind) ∧ kind ≠ .void ∧
        (reg.box? kind).isSome = true := by
  induction n generalizing source with
  | zero =>
    cases hbound : reg.boundOf? source with
    | none => exact assignableWithin_root_iff_of_unbounded hroot hbound 0
    | some bound =>
      obtain ⟨v, rfl, hbound⟩ := exists_var_of_boundOf hbound
      rw [assignableWithin_root_var root hbound]
      simp [assignableWithin, followBounds?_var_zero hbound]
  | succ n ih =>
    cases hbound : reg.boundOf? source with
    | none => exact assignableWithin_root_iff_of_unbounded hroot hbound (n + 1)
    | some bound =>
      -- The way to the bound takes one step of the conversions, and one of the chain.
      obtain ⟨v, rfl, hbound⟩ := exists_var_of_boundOf hbound
      rw [assignableWithin_root_var root hbound, ih, followBounds?_var_succ hbound]
      refine or_congr_right ⟨?_, ?_⟩
      · rintro ⟨m, hm, kind, hkind⟩
        refine ⟨m + 1, Nat.succ_lt_succ hm, kind, ?_⟩
        rwa [followBounds?_var_succ hbound]
      · rintro ⟨m, hm, kind, hkind⟩
        cases m with
        | zero =>
          rw [followBounds?_var_zero hbound] at hkind
          cases hkind.1
        | succ m =>
          rw [followBounds?_var_succ hbound] at hkind
          exact ⟨m, Nat.lt_of_succ_lt_succ hm, kind, hkind⟩

/-! ### The null reference -/

theorem isAssignable_null (target : Ty) : reg.isAssignable target .null = target.isReference := by
  cases target with
  | primitive kind => cases kind <;> rfl
  | nominal | var | array | null => simp [isAssignable, assignableWithin, Ty.void, Ty.isReference]

theorem isAssignable_null_iff {source : Ty} :
    reg.isAssignable .null source = true ↔ source = .null := by
  cases source with
  | null => simp [isAssignable_null, Ty.isReference]
  | primitive | nominal | var | array => simp [isAssignable, assignableWithin]

/-! ### Both ends -/

/-- Let there be a root. It takes a type just when the bounds that start at it end in a reference
within the limit, as they do at once where there are none, or before the limit in a primitive type
other than `void` with a box. In particular it takes just those primitive types. The null reference
may be used for references and for nothing else, and it alone may be used for itself. -/
theorem root_top_null_bottom (hroot : reg.root = some root) :
    (∀ source, reg.isAssignable (.simple root) source = true ↔
      (∃ last, reg.followBounds? maxConversions source = some last ∧ last.isReference = true) ∨
      ∃ n < maxConversions, ∃ kind, reg.followBounds? n source = some (.primitive kind) ∧
        kind ≠ .void ∧ (reg.box? kind).isSome = true) ∧
    (∀ kind, reg.isAssignable (.simple root) (.primitive kind) = true ↔
      kind ≠ .void ∧ (reg.box? kind).isSome = true) ∧
    (∀ target, reg.isAssignable target .null = target.isReference) ∧
    (∀ source, reg.isAssignable .null source = true ↔ source = .null) := by
  refine ⟨fun source => assignableWithin_root_iff hroot, fun kind => ?_, isAssignable_null,
    fun source => isAssignable_null_iff⟩
  have hlimit : 0 < maxConversions := by decide
  rw [isAssignable, assignableWithin_root_primitive_iff hroot]
  simp [hlimit]

/-- The classes of `numberRegistry`, with eighteen parameters of which each one is bounded by the
next and the last one by nothing. -/
def ladderRegistry : Registry :=
  { numberRegistry with
    typeParams := ((List.range 17).map fun n =>
      ⟨"P", some (.var ⟨UInt32.ofNat (n + 1)⟩)⟩).toArray.push ⟨"P", none⟩ }

/-- From the second parameter there are sixteen steps to the last, which the root takes, and from
the first one there is a step too many. -/
theorem root_top_null_bottom_ladder :
    ladderRegistry.root = some ⟨0⟩ ∧
      ladderRegistry.isAssignable (.simple ⟨0⟩) (.var ⟨1⟩) = true ∧
      ladderRegistry.isAssignable (.simple ⟨0⟩) (.var ⟨0⟩) ≠ true ∧
      ladderRegistry.isAssignable (.simple ⟨0⟩) (.primitive .int) = true ∧
      ladderRegistry.isAssignable (.var ⟨0⟩) .null = true ∧
      ladderRegistry.isAssignable .null (.var ⟨0⟩) ≠ true := by
  have hroot : ladderRegistry.root = some ⟨0⟩ := rfl
  have hlast : ladderRegistry.followBounds? maxConversions (.var ⟨1⟩) = some (.var ⟨17⟩) := by
    decide
  have hnone : ∀ n < maxConversions + 1, ladderRegistry.followBounds? n (.var ⟨0⟩) = none := by
    decide
  obtain ⟨htop, hprimitive, hnull, hbottom⟩ := root_top_null_bottom hroot
  refine ⟨hroot, (htop _).2 (.inl ⟨_, hlast, rfl⟩), ?_, (hprimitive _).2 (by decide), hnull _,
    fun h => nomatch (hbottom _).1 h⟩
  intro h
  rcases (htop _).1 h with ⟨last, hlast, -⟩ | ⟨n, hn, kind, hlast, -⟩
  · rw [hnone _ (Nat.lt_succ_self _)] at hlast
    cases hlast
  · rw [hnone n (Nat.lt_succ_of_lt hn)] at hlast
    cases hlast

end Registry

end MethodOperators
