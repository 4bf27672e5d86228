import MethodOperators.Proofs.BoundedParameters

/-! Arrays of arrays. Each layer takes one of the replacements that the limit allows, so that below
the depth of the limit only arrays of the same elements go together. -/

namespace MethodOperators

namespace Ty

/-- Arrays of arrays, in `n` layers around the elements. -/
def arrays : (n : Nat) → (element : Ty) → Ty
  | 0, element => element
  | n + 1, element => .array (arrays n element)

theorem arrays_inj {n : Nat} {t s : Ty} : t.arrays n = s.arrays n ↔ t = s := by
  induction n with
  | zero => rfl
  | succ n ih => simp [arrays, ih]

theorem isReference_arrays {t : Ty} (h : t.isReference = true) (n : Nat) :
    (t.arrays n).isReference = true := by
  cases n with
  | zero => exact h
  | succ n => rfl

end Ty

namespace Registry

variable {reg : Registry}

theorem reduct?_array {t s : Ty} (ht : t.isReference = true) (hs : s.isReference = true)
    (hne : t ≠ s) : reg.reduct? (.array t) (.array s) = some (t, s) := by
  simp [reduct?, Ty.void, ht, hs, hne]

/-- Each layer uses up one replacement, as long as there is one left. -/
theorem assignableWithin_arrays {t s : Ty} (ht : t.isReference = true) (hs : s.isReference = true)
    (hne : t ≠ s) (fuel n : Nat) :
    reg.assignableWithin fuel (t.arrays n) (s.arrays n) = reg.assignableWithin (fuel - n) t s := by
  induction n generalizing fuel with
  | zero => rfl
  | succ n ih =>
    cases fuel with
    | zero => simp [assignableWithin]
    | succ fuel =>
      have hlayer : t.arrays n ≠ s.arrays n := fun heq => hne (Ty.arrays_inj.1 heq)
      rw [Ty.arrays, Ty.arrays, assignableWithin_succ, reduct?_array (Ty.isReference_arrays ht n)
        (Ty.isReference_arrays hs n) hlayer, Nat.succ_sub_succ]
      exact ih fuel

theorem isAssignable_self {t : Ty} (h : t ≠ .void) : reg.isAssignable t t = true := by
  simp [isAssignable, assignableWithin, h]

/-- Arrays of references in `n` layers: the elements are the same, or the one may be used as the
other and this is settled with `n` replacements fewer. -/
theorem isAssignable_arrays_iff {t s : Ty} (ht : t.isReference = true) (hs : s.isReference = true)
    (n : Nat) :
    reg.isAssignable (t.arrays n) (s.arrays n) = true ↔ t = s ∨
      n ≤ maxConversions ∧ reg.endsWithin (maxConversions - n) t s = true ∧
        reg.isAssignable t s = true := by
  by_cases hsame : t = s
  · subst hsame
    have hvoid : t.arrays n ≠ .void := by
      intro heq
      have href := Ty.isReference_arrays ht n
      rw [heq] at href
      cases href
    exact iff_of_true (isAssignable_self hvoid) (.inl rfl)
  · rw [isAssignable, assignableWithin_arrays ht hs hsame]
    by_cases hn : n ≤ maxConversions
    · have hfuel : maxConversions + 1 - n = maxConversions - n + 1 := by omega
      simp only [hsame, hn, false_or, true_and, hfuel]
      exact assignableWithin_succ_iff (Nat.sub_le _ _)
    · have hfuel : maxConversions + 1 - n = 0 := by omega
      simp [hsame, hn, hfuel, assignableWithin]

theorem endsWithin_toTy (sub sup : ClassType) (n : Nat) :
    reg.endsWithin n sup.toTy sub.toTy = true :=
  endsWithin_of_reduct_none (by simp [reduct?, ClassType.toTy]) n

/-- Within the limit on replacements, arrays of class types go together just when the class types
do, whatever the number of layers. In more layers than that, no arrays but those of the same class
type go together. -/
theorem isAssignable_arrays_of_classes (reg : Registry) (n : Nat) (sub sup : ClassType) :
    (n ≤ maxConversions →
      reg.isAssignable (sup.toTy.arrays n) (sub.toTy.arrays n) =
        reg.isAssignable sup.toTy sub.toTy) ∧
    (maxConversions < n →
      (reg.isAssignable (sup.toTy.arrays n) (sub.toTy.arrays n) = true ↔ sup = sub)) := by
  have harrays : reg.isAssignable (sup.toTy.arrays n) (sub.toTy.arrays n) = true ↔
      sup.toTy = sub.toTy ∨ n ≤ maxConversions ∧
        reg.endsWithin (maxConversions - n) sup.toTy sub.toTy = true ∧
          reg.isAssignable sup.toTy sub.toTy = true :=
    isAssignable_arrays_iff rfl rfl n
  simp only [endsWithin_toTy, true_and] at harrays
  constructor
  · intro hn
    rw [Bool.eq_iff_iff, harrays]
    constructor
    · rintro (hsame | ⟨-, h⟩)
      · rw [hsame]
        exact isAssignable_self nofun
      · exact h
    · exact fun h => .inr ⟨hn, h⟩
  · intro hn
    rw [harrays]
    constructor
    · rintro (hsame | ⟨hle, -⟩)
      · exact ClassType.toTy_inj hsame
      · omega
    · rintro rfl
      exact .inl rfl

/-- Arrays of `Number` may be used as arrays of `Order<Number>` in sixteen layers, and no longer in
seventeen. -/
theorem isAssignable_arrays_of_classes_number :
    numberRegistry.isAssignable (Ty.arrays 16 (.nominal ⟨2⟩ [.simple ⟨1⟩]))
        (Ty.arrays 16 (.simple ⟨1⟩)) = true ∧
      numberRegistry.isAssignable (Ty.arrays 17 (.nominal ⟨2⟩ [.simple ⟨1⟩]))
        (Ty.arrays 17 (.simple ⟨1⟩)) ≠ true := by
  have hsubtype : numberRegistry.isSubtype (.simple ⟨1⟩) ⟨⟨2⟩, [.simple ⟨1⟩]⟩ = true :=
    isSubtype_iff_nearest.2 (.inr ⟨_, ⟨1, by decide⟩, .inr (.inr rfl)⟩)
  have hclass := (isAssignable_toTy (.simple ⟨1⟩) ⟨⟨2⟩, [.simple ⟨1⟩]⟩).trans hsubtype
  obtain ⟨hwithin, -⟩ :=
    isAssignable_arrays_of_classes numberRegistry 16 (.simple ⟨1⟩) ⟨⟨2⟩, [.simple ⟨1⟩]⟩
  obtain ⟨-, hbeyond⟩ :=
    isAssignable_arrays_of_classes numberRegistry 17 (.simple ⟨1⟩) ⟨⟨2⟩, [.simple ⟨1⟩]⟩
  have hdistinct : (⟨⟨2⟩, [.simple ⟨1⟩]⟩ : ClassType) ≠ .simple ⟨1⟩ := by decide
  exact ⟨(hwithin (by decide)).trans hclass, fun h => hdistinct ((hbeyond (by decide)).1 h)⟩

/-- An `Integer` may be used as an `Object`, and an array of `Integer` in seventeen layers may not
be used as one of `Object`. -/
theorem not_isAssignable_arrays_beyond_limit :
    ¬ ((builtin ⟨0⟩).isAssignable (Ty.arrays 17 (.named "Object" []))
        (Ty.arrays 17 (.named "Integer" [])) =
      (builtin ⟨0⟩).isAssignable (.named "Object" []) (.named "Integer" [])) := by
  decide +kernel

end Registry

end MethodOperators
