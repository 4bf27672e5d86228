import MethodOperators.Proofs.Conversion

/-! A parameter may be used where its bound may, as far as classes, arrays and parameters go. A
bound that turns into a primitive value does so on its own account, and not for the parameter. -/

namespace MethodOperators

namespace Registry

variable {reg : Registry}

/-! ### Questions and what they come down to -/

/-- The target and the source of the question that another one comes down to, unless its answer can
be told at once. -/
def reduct? (reg : Registry) (target source : Ty) : Option (Ty × Ty) :=
  if target = .void ∨ source = .void ∨ target = source then none
  else match source, target with
    | .primitive _, .primitive _ | .primitive _, .null => none
    | .primitive k, _ => (reg.box? k).map fun box => (target, .simple box)
    | .array s, .array t => if t.isReference && s.isReference then some (t, s) else none
    | .var _, .primitive _ | .var _, .null => none
    | .var v, _ => (reg.bound? v).map fun bound => (target, bound)
    | _, _ => none

/-- A question is settled after it has come down to another one `n` times at most. -/
def endsWithin (reg : Registry) : (n : Nat) → (target source : Ty) → Bool
  | 0, target, source => (reg.reduct? target source).isNone
  | n + 1, target, source =>
    (reg.reduct? target source).all fun next => endsWithin reg n next.1 next.2

/-- The limit matters only to questions that come down to others. -/
theorem assignableWithin_succ (n : Nat) (target source : Ty) :
    reg.assignableWithin (n + 1) target source =
      match reg.reduct? target source with
      | some next => reg.assignableWithin n next.1 next.2
      | none => reg.assignableWithin 1 target source := by
  by_cases hstop : target = .void ∨ source = .void ∨ target = source
  · simp only [reduct?, if_pos hstop]
    rcases hstop with h | h | h <;> simp [assignableWithin, h]
  · simp only [reduct?, if_neg hstop]
    obtain ⟨htarget, hsource, hne⟩ : target ≠ .void ∧ source ≠ .void ∧ target ≠ source := by
      simpa using hstop
    cases source with
    | null => simp [assignableWithin, htarget, hne]
    | nominal id args => cases target <;> simp [assignableWithin, htarget, hsource, hne]
    | primitive k =>
      cases target with
      | primitive | null => simp [assignableWithin, htarget, hsource, hne]
      | nominal | var | array =>
        cases hbox : reg.box? k <;> simp [assignableWithin, htarget, hsource, hne, hbox]
    | array s =>
      cases target with
      | array t =>
        cases hs : s.isReference <;> cases ht : t.isReference <;>
          simp [assignableWithin, htarget, hsource, hne, hs, ht]
      | primitive | nominal | var | null => simp [assignableWithin, htarget, hsource, hne]
    | var v =>
      cases target with
      | primitive | null => simp [assignableWithin, htarget, hsource, hne]
      | nominal | var | array =>
        cases hbound : reg.bound? v <;> simp [assignableWithin, htarget, hsource, hne, hbound]

/-! ### Limits -/

theorem endsWithin_of_reduct_none {target source : Ty} (h : reg.reduct? target source = none)
    (n : Nat) : reg.endsWithin n target source = true := by
  cases n <;> simp [endsWithin, h]

theorem endsWithin_of_assignableWithin {n : Nat} {target source : Ty}
    (h : reg.assignableWithin (n + 1) target source = true) :
    reg.endsWithin n target source = true := by
  induction n generalizing target source with
  | zero =>
    rw [assignableWithin_succ] at h
    cases hnext : reg.reduct? target source with
    | none => exact endsWithin_of_reduct_none hnext 0
    | some next =>
      rw [hnext] at h
      cases h
  | succ n ih =>
    rw [assignableWithin_succ] at h
    cases hnext : reg.reduct? target source with
    | none => exact endsWithin_of_reduct_none hnext (n + 1)
    | some next =>
      rw [hnext] at h
      rw [endsWithin, hnext]
      exact ih h

/-- Raising the limit changes no answer to a question that is settled. -/
theorem assignableWithin_of_endsWithin {n m : Nat} {target source : Ty}
    (hends : reg.endsWithin n target source = true) (hle : n ≤ m) :
    reg.assignableWithin (m + 1) target source = reg.assignableWithin (n + 1) target source := by
  induction n generalizing m target source with
  | zero =>
    rw [endsWithin, Option.isNone_iff_eq_none] at hends
    rw [assignableWithin_succ, hends]
  | succ n ih =>
    obtain ⟨m, rfl⟩ : ∃ l, m = l + 1 := ⟨m - 1, by omega⟩
    rw [assignableWithin_succ, assignableWithin_succ (n + 1)]
    cases hnext : reg.reduct? target source with
    | none => rfl
    | some next =>
      rw [endsWithin, hnext] at hends
      exact ih hends (by omega)

/-- Under the lower of two limits the answer is yes just when it is so under the higher one and the
question is settled by then. -/
theorem assignableWithin_succ_iff {n m : Nat} (hle : n ≤ m) {target source : Ty} :
    reg.assignableWithin (n + 1) target source = true ↔
      reg.endsWithin n target source = true ∧
        reg.assignableWithin (m + 1) target source = true := by
  constructor
  · intro h
    have hends := endsWithin_of_assignableWithin h
    exact ⟨hends, (assignableWithin_of_endsWithin hends hle).trans h⟩
  · rintro ⟨hends, h⟩
    exact (assignableWithin_of_endsWithin hends hle).symm.trans h

/-! ### Bounds -/

def boundOf? (reg : Registry) : Ty → Option Ty
  | .var v => reg.bound? v
  | _ => none

/-- The type that a chain of bounds ends in, if it has `n` steps at most. -/
def followBounds? (reg : Registry) : (n : Nat) → Ty → Option Ty
  | 0, ty => if (reg.boundOf? ty).isNone then some ty else none
  | n + 1, ty =>
    match reg.boundOf? ty with
    | none => some ty
    | some bound => followBounds? reg n bound

theorem followBounds?_of_boundOf_none {ty : Ty} (h : reg.boundOf? ty = none) (n : Nat) :
    reg.followBounds? n ty = some ty := by
  cases n <;> simp [followBounds?, h]

theorem reduct?_var {v : TypeVar} {bound target : Ty} (hbound : reg.bound? v = some bound)
    (hne : target ≠ .var v) (href : target.isReference = true) (hnull : target ≠ .null) :
    reg.reduct? target (.var v) = some (target, bound) := by
  cases target with
  | primitive => cases href
  | null => exact absurd rfl hnull
  | nominal | var | array => simp [reduct?, Ty.void, hne, hbound]

/-- Apart from primitive types and arrays only parameters are replaced, by their bounds. -/
theorem exists_bound_of_reduct {target source : Ty} {next : Ty × Ty}
    (h : reg.reduct? target source = some next) (hprimitive : ∀ k, source ≠ .primitive k)
    (harray : ∀ element, source ≠ .array element) :
    ∃ bound, reg.boundOf? source = some bound ∧ next = (target, bound) := by
  cases source with
  | primitive k => exact absurd rfl (hprimitive k)
  | array element => exact absurd rfl (harray element)
  | null | nominal => cases target <;> simp [reduct?] at h
  | var v =>
    simp only [reduct?] at h
    obtain ⟨-, h⟩ := Option.ite_none_left_eq_some.1 h
    cases target with
    | primitive | null => cases h
    | nominal | var | array =>
      obtain ⟨bound, hbound, rfl⟩ := Option.map_eq_some_iff.1 h
      exact ⟨bound, hbound, rfl⟩

/-- A chain of bounds settles every question about its start if no box and no elements come up at
its end. -/
theorem endsWithin_of_followBounds {n : Nat} {source last : Ty}
    (h : reg.followBounds? n source = some last) (hprimitive : ∀ k, last ≠ .primitive k)
    (harray : ∀ element, last ≠ .array element) (target : Ty) :
    reg.endsWithin n target source = true := by
  have hbound {source : Ty} {n : Nat} (h : reg.followBounds? n source = some last)
      {next : Ty × Ty} (hnext : reg.reduct? target source = some next) :
      ∃ bound, reg.boundOf? source = some bound ∧ next = (target, bound) := by
    refine exists_bound_of_reduct hnext ?_ ?_
    · rintro k rfl
      rw [followBounds?_of_boundOf_none rfl] at h
      exact hprimitive k (Option.some.inj h).symm
    · rintro element rfl
      rw [followBounds?_of_boundOf_none rfl] at h
      exact harray element (Option.some.inj h).symm
  induction n generalizing source with
  | zero =>
    cases hnext : reg.reduct? target source with
    | none => exact endsWithin_of_reduct_none hnext 0
    | some next =>
      obtain ⟨bound, hsome, -⟩ := hbound h hnext
      simp [followBounds?, hsome] at h
  | succ n ih =>
    cases hnext : reg.reduct? target source with
    | none => exact endsWithin_of_reduct_none hnext (n + 1)
    | some next =>
      obtain ⟨bound, hsome, rfl⟩ := hbound h hnext
      rw [followBounds?, hsome] at h
      rw [endsWithin, hnext]
      exact ih h

theorem isAssignable_var_iff {v : TypeVar} {bound : Ty} (hbound : reg.bound? v = some bound)
    (target : Ty) :
    reg.isAssignable target (.var v) = true ↔ target = .var v ∨
      target.isReference = true ∧ target ≠ .null ∧
        reg.endsWithin maxConversions target (.var v) = true ∧
        reg.isAssignable target bound = true := by
  by_cases hself : target = .var v
  · subst hself
    exact iff_of_true (by simp [isAssignable, assignableWithin, Ty.void]) (.inl rfl)
  by_cases htarget : target.isReference = true ∧ target ≠ .null
  · obtain ⟨href, hnull⟩ := htarget
    have hnext := reduct?_var hbound hself href hnull
    obtain ⟨n, hn⟩ : ∃ n, maxConversions = n + 1 := ⟨15, rfl⟩
    rw [isAssignable, assignableWithin_succ, hnext, isAssignable, hn, endsWithin, hnext]
    simp only [hself, href, hnull, ne_eq, not_false_eq_true, false_or, true_and]
    exact assignableWithin_succ_iff (Nat.le_succ n)
  · have hno : reg.isAssignable target (.var v) = false := by
      cases target with
      | primitive | null => simp [isAssignable, assignableWithin]
      | nominal | var | array => simp [Ty.isReference] at htarget
    rw [hno]
    refine iff_of_false Bool.false_ne_true ?_
    rintro (hsame | ⟨href, hnull, -⟩)
    · exact hself hsame
    · exact htarget ⟨href, hnull⟩

/-- A parameter may be used for itself, and for those classes, arrays and parameters that its bound
may be used for, as long as the limit leaves room for the step from the parameter to the bound. This
is always so if the bounds end within the limit, in a type that is neither primitive nor an array.
As a primitive value a parameter may not be used even if its bound may. -/
theorem isAssignable_var_follows_bound {v : TypeVar} {bound : Ty}
    (hbound : reg.bound? v = some bound) :
    (∀ target, reg.isAssignable target (.var v) = true ↔ target = .var v ∨
      target.isReference = true ∧ target ≠ .null ∧
        reg.endsWithin maxConversions target (.var v) = true ∧
        reg.isAssignable target bound = true) ∧
    ∀ last, reg.followBounds? maxConversions (.var v) = some last →
      (∀ k, last ≠ .primitive k) → (∀ element, last ≠ .array element) →
      ∀ target, target.isReference = true → target ≠ .null →
        (reg.isAssignable target (.var v) = true ↔
          target = .var v ∨ reg.isAssignable target bound = true) := by
  refine ⟨isAssignable_var_iff hbound, ?_⟩
  intro last hlast hprimitive harray target href hnull
  have hends := endsWithin_of_followBounds hlast hprimitive harray target
  rw [isAssignable_var_iff hbound]
  simp only [href, hnull, hends, ne_eq, not_false_eq_true, true_and]

/-- The classes of `numberRegistry`, with a parameter bounded by `Number`, one bounded by an array
of `Number`, and for each of them another one that it bounds. -/
def numbersRegistry : Registry :=
  { numberRegistry with
    typeParams := #[⟨"T", none⟩, ⟨"N", some (.simple ⟨1⟩)⟩, ⟨"M", some (.var ⟨1⟩)⟩,
      ⟨"A", some (.array (.simple ⟨1⟩))⟩, ⟨"B", some (.var ⟨3⟩)⟩] }

/-- From `M` to `N` and to `Number`, and from `B` to `A`, to the array and to its elements. -/
theorem isAssignable_var_follows_bound_numbers :
    numbersRegistry.isAssignable (.nominal ⟨2⟩ [.simple ⟨1⟩]) (.var ⟨2⟩) = true ∧
      numbersRegistry.isAssignable (.array (.nominal ⟨2⟩ [.simple ⟨1⟩])) (.var ⟨4⟩) = true := by
  have hsubtype : numbersRegistry.isSubtype (.simple ⟨1⟩) ⟨⟨2⟩, [.simple ⟨1⟩]⟩ = true :=
    isSubtype_iff_nearest.2 (.inr ⟨_, ⟨1, by decide⟩, .inr (.inr rfl)⟩)
  constructor
  · have hbound : numbersRegistry.isAssignable (.nominal ⟨2⟩ [.simple ⟨1⟩]) (.var ⟨1⟩) = true :=
      hsubtype
    have hlast : numbersRegistry.followBounds? maxConversions (.var ⟨2⟩) = some (.simple ⟨1⟩) := rfl
    exact ((isAssignable_var_follows_bound rfl).2 _ hlast nofun nofun (.nominal ⟨2⟩ [.simple ⟨1⟩])
      rfl nofun).2 (.inr hbound)
  · have hbound : numbersRegistry.isAssignable (.array (.nominal ⟨2⟩ [.simple ⟨1⟩]))
        (.var ⟨3⟩) = true :=
      hsubtype
    exact ((isAssignable_var_follows_bound rfl).1 _).2 (.inr ⟨rfl, nofun, by decide, hbound⟩)

/-- A parameter that is bounded by `Integer` may not be used as an `int`, for which its bound may be
used. -/
theorem not_isAssignable_var_of_unbox :
    let reg := ((builtin ⟨0⟩).allocateParam "S" (some (.named "Integer" []))).2
    reg.bound? ⟨0⟩ = some (.named "Integer" []) ∧
      reg.followBounds? maxConversions (.var ⟨0⟩) = some (.named "Integer" []) ∧
      ¬ (reg.isAssignable (.primitive .int) (.var ⟨0⟩) = true ↔
        .primitive .int = Ty.var ⟨0⟩ ∨
          reg.isAssignable (.primitive .int) (.named "Integer" []) = true) := by
  intro reg
  have hparam : reg.isAssignable (.primitive .int) (.var ⟨0⟩) = false := rfl
  have hbound : reg.isAssignable (.primitive .int) (.named "Integer" []) = true := by
    decide +kernel
  exact ⟨rfl, rfl, by simp [hparam, hbound]⟩

end Registry

end MethodOperators
