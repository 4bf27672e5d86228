import MethodOperators.Proofs.NearestInstance

/-! The rules under which a value of one type may be used as another, as a relation that knows no
order of cases, no limit on conversions and no walk up the hierarchy. -/

namespace MethodOperators

open Relation (ReflTransGen)

namespace Primitive

/-- One rung up the ladder of numeric types. A `char` gets onto it at `int`. -/
inductive WidensStep : Primitive → Primitive → Prop
  | byte : WidensStep .byte .short
  | short : WidensStep .short .int
  | char : WidensStep .char .int
  | int : WidensStep .int .long
  | long : WidensStep .long .float
  | float : WidensStep .float .double

theorem ne_void_of_widensTo {k l : Primitive} (h : k.widensTo l = true) : k ≠ .void := by
  rintro rfl
  cases l <;> cases h

/-- A type from which only a single rung leads on widens to itself and to what that rung widens
to. -/
theorem widens_of_step {k next : Primitive} (hstep : WidensStep k next)
    (hnext : ∀ l, next.widensTo l = true → ReflTransGen WidensStep next l)
    (hup : ∀ l, k.widensTo l = true → l = k ∨ next.widensTo l = true) :
    ∀ l, k.widensTo l = true → ReflTransGen WidensStep k l := by
  intro l hl
  rcases hup l hl with rfl | hl
  · exact .refl
  · exact .head hstep (hnext l hl)

theorem widens_of_widensTo {k l : Primitive} (h : k.widensTo l = true) :
    ReflTransGen WidensStep k l := by
  -- From the top of the ladder down, since each type leans on the one above it.
  have hdouble : ∀ l, Primitive.double.widensTo l = true → ReflTransGen WidensStep .double l := by
    intro l hl
    have hl' : l = .double := by cases l <;> trivial
    rw [hl']
  have hfloat := widens_of_step .float hdouble (by intro l; cases l <;> decide)
  have hlong := widens_of_step .long hfloat (by intro l; cases l <;> decide)
  have hint := widens_of_step .int hlong (by intro l; cases l <;> decide)
  have hshort := widens_of_step .short hint (by intro l; cases l <;> decide)
  have hbyte := widens_of_step .byte hshort (by intro l; cases l <;> decide)
  have hchar := widens_of_step .char hint (by intro l; cases l <;> decide)
  cases k with
  | boolean =>
    have hl' : l = .boolean := by cases l <;> trivial
    rw [hl']
  | byte => exact hbyte l h
  | short => exact hshort l h
  | char => exact hchar l h
  | int => exact hint l h
  | long => exact hlong l h
  | float => exact hfloat l h
  | double => exact hdouble l h
  | void => exact absurd rfl (ne_void_of_widensTo h)

theorem ne_void_of_widens {k l : Primitive} (hk : k ≠ .void) (h : ReflTransGen WidensStep k l) :
    l ≠ .void := by
  cases h with
  | refl => exact hk
  | tail _ hstep => cases hstep <;> decide

end Primitive

namespace Registry

variable {reg : Registry}

/-- `reg.Assignable target source` says that there is a reason for which a value of type `source`
may be used where `target` is expected. -/
inductive Assignable (reg : Registry) : (target source : Ty) → Prop
  | same {t : Ty} (hvoid : t ≠ .void) : Assignable reg t t
  | null {t : Ty} (href : t.isReference = true) : Assignable reg t .null
  | widen {k l : Primitive} (hvoid : k ≠ .void) (hwiden : ReflTransGen Primitive.WidensStep k l) :
      Assignable reg (.primitive l) (.primitive k)
  -- A class that stands for a primitive type turns into it, and may then widen.
  | unbox {id : ClassId} {args : List Ty} {k l : Primitive} (hunbox : reg.unbox? id = some k)
      (hvoid : k ≠ .void) (hwiden : ReflTransGen Primitive.WidensStep k l) :
      Assignable reg (.primitive l) (.nominal id args)
  -- A primitive type turns into the class that stands for it, and that into a type of references.
  | box {k : Primitive} {id : ClassId} {t : Ty} (hvoid : k ≠ .void) (hbox : reg.box? k = some id)
      (href : t.isReference = true) (hrest : Assignable reg t (.simple id)) :
      Assignable reg t (.primitive k)
  | subtype {sub x : ClassType} {sup : ClassType} (hreach : ReflTransGen reg.Step sub x)
      (hid : x.id = sup.id) (hargs : sup.args = [] ∨ x.args = [] ∨ x.args = sup.args) :
      Assignable reg sup.toTy sub.toTy
  -- The root takes all references but those of a parameter with a bound, for which the bound speaks.
  | rootOfClass {root : ClassId} {params : List Ty} (hroot : reg.root = some root)
      (sub : ClassType) : Assignable reg (.nominal root params) sub.toTy
  | rootOfArray {root : ClassId} {params : List Ty} (hroot : reg.root = some root)
      (element : Ty) : Assignable reg (.nominal root params) (.array element)
  | rootOfVar {root : ClassId} {params : List Ty} {v : TypeVar} (hroot : reg.root = some root)
      (hbound : reg.bound? v = none) : Assignable reg (.nominal root params) (.var v)
  | array {t s : Ty} (ht : t.isReference = true) (hs : s.isReference = true)
      (helement : Assignable reg t s) : Assignable reg (.array t) (.array s)
  | bound {t bound : Ty} {v : TypeVar} (hbound : reg.bound? v = some bound)
      (hrest : Assignable reg t bound) : Assignable reg t (.var v)

theorem Assignable.ne_void {target source : Ty} (h : reg.Assignable target source) :
    target ≠ .void ∧ source ≠ .void := by
  have hprimitive {k : Primitive} (hk : k ≠ .void) : Ty.primitive k ≠ .void := by
    intro heq
    exact hk (Ty.primitive.inj heq)
  induction h with
  | same hvoid => exact ⟨hvoid, hvoid⟩
  | null href =>
    refine ⟨?_, nofun⟩
    rintro rfl
    cases href
  | widen hvoid hwiden =>
    exact ⟨hprimitive (Primitive.ne_void_of_widens hvoid hwiden), hprimitive hvoid⟩
  | unbox hunbox hvoid hwiden =>
    exact ⟨hprimitive (Primitive.ne_void_of_widens hvoid hwiden), nofun⟩
  | box hvoid hbox href hrest ih => exact ⟨ih.1, hprimitive hvoid⟩
  | subtype hreach hid hargs => exact ⟨nofun, nofun⟩
  | rootOfClass hroot sub => exact ⟨nofun, nofun⟩
  | rootOfArray hroot element => exact ⟨nofun, nofun⟩
  | rootOfVar hroot hbound => exact ⟨nofun, nofun⟩
  | array ht hs helement ih => exact ⟨nofun, nofun⟩
  | bound hbound hrest ih => exact ⟨ih.1, nofun⟩

theorem isReference_of_ne_primitive {t : Ty} (h : ∀ k, t = .primitive k → False) :
    t.isReference = true := by
  cases t with
  | primitive k => exact (h k rfl).elim
  | nominal | var | array | null => rfl

theorem assignable_of_isSubtype {sub sup : ClassType} (h : reg.isSubtype sub sup = true) :
    reg.Assignable sup.toTy sub.toTy := by
  rcases isSubtype_iff_nearest.1 h with hroot | ⟨x, hx, hargs⟩
  · exact .rootOfClass hroot sub
  · obtain ⟨hreach, hid⟩ := hx.reaches
    exact .subtype hreach hid hargs

/-- However many conversions are allowed, each positive answer can be derived. The case that is
taken decides the rule, and a conversion that is counted is one more rule on top. -/
theorem assignable_of_assignableWithin {fuel : Nat} {target source : Ty}
    (h : reg.assignableWithin fuel target source = true) : reg.Assignable target source := by
  fun_induction reg.assignableWithin fuel target source with
  | case1 => cases h
  | case2 => cases h
  | case3 fuel source hvoid => exact .same fun hsource => hvoid (.inl hsource)
  | case4 fuel target hvoid hne => exact .null h
  | case5 fuel k l hvoid hne =>
    exact .widen (Primitive.ne_void_of_widensTo h) (Primitive.widens_of_widensTo h)
  | case6 => cases h
  | case7 fuel target k hprimitive hnull hvoid hne ih =>
    obtain ⟨box, hbox, hrest⟩ := (Option.any_eq_true _ _).1 h
    have hk : k ≠ .void := fun hk => hvoid (.inr (congrArg Ty.primitive hk))
    exact .box hk hbox (isReference_of_ne_primitive hprimitive) (ih box hrest)
  | case8 fuel id args l hvoid hne =>
    obtain ⟨k, hunbox, hwiden⟩ := (Option.any_eq_true _ _).1 h
    exact .unbox hunbox (Primitive.ne_void_of_widensTo hwiden)
      (Primitive.widens_of_widensTo hwiden)
  | case9 fuel sub args sup params hvoid hne =>
    have hsubtype : reg.isSubtype ⟨sub, args⟩ ⟨sup, params⟩ = true := h
    exact assignable_of_isSubtype hsubtype
  | case10 => cases h
  | case11 fuel element id args hvoid hne => exact .rootOfArray (isRoot_iff.1 h) element
  | case12 fuel s t hvoid hne ih =>
    simp only [Bool.and_eq_true] at h
    exact .array h.1.1 h.1.2 (ih h.2)
  | case13 => cases h
  | case14 => cases h
  | case15 => cases h
  | case16 fuel target v bound hbound hprimitive hnull hvoid hne ih => exact .bound hbound (ih h)
  | case17 fuel target v hbound hprimitive hnull hvoid hne =>
    obtain ⟨ct, hct, hroot⟩ := (Option.any_eq_true _ _).1 h
    cases target with
    | nominal id params =>
      obtain rfl := Option.some.inj hct
      exact .rootOfVar (isRoot_iff.1 hroot) hbound
    | primitive | var | array | null => cases hct

/-- Every positive answer can be derived by the rules. So a type without values can never be used,
and never be expected, whatever stands for it and whatever parameters it bounds. -/
theorem isAssignable_sound (reg : Registry) (target source : Ty) :
    (reg.isAssignable target source = true → reg.Assignable target source) ∧
      reg.isAssignable .void source = false ∧ reg.isAssignable target .void = false := by
  have hsound {t s : Ty} (h : reg.isAssignable t s = true) : reg.Assignable t s :=
    assignable_of_assignableWithin h
  refine ⟨hsound, ?_, ?_⟩
  · rw [← Bool.not_eq_true]
    exact fun h => (hsound h).ne_void.1 rfl
  · rw [← Bool.not_eq_true]
    exact fun h => (hsound h).ne_void.2 rfl

/-- A class `Number` that is a subtype of `Order<Number>` and stands for both `int` and `void`, an
interface `Order<T>` that is a subtype of `Number`, and parameters of which two bound each other, one
is bounded by `int` and one by `void`. -/
def numberRegistry : Registry :=
  { Registry.empty ⟨0⟩ with
    classes := [{ id := ⟨0⟩, name := "Object" },
      { id := ⟨1⟩, name := "Number", interfaces := [⟨⟨2⟩, [.simple ⟨1⟩]⟩] },
      { id := ⟨2⟩, name := "Order", modifiers := ⟨true⟩, typeParams := [⟨0⟩],
        interfaces := [.simple ⟨1⟩] }].foldl ClassTable.declare .empty
    typeParams := #[⟨"T", none⟩, ⟨"U", some (.var ⟨2⟩)⟩, ⟨"V", some (.var ⟨1⟩)⟩,
      ⟨"I", some (.primitive .int)⟩, ⟨"N", some .void⟩]
    boxes := .ofList [(.int, ⟨1⟩), (.void, ⟨1⟩)]
    unboxes := .ofList [(⟨1⟩, .void)]
    root := some ⟨0⟩ }

/-- An array of a parameter bounded by `int` may be used as an array of `Order<Number>`, and `void`
may not be used although a class stands for it. -/
theorem isAssignable_sound_number :
    numberRegistry.isAssignable (.array (.nominal ⟨2⟩ [.simple ⟨1⟩])) (.array (.var ⟨3⟩)) = true ∧
      numberRegistry.Assignable (.array (.nominal ⟨2⟩ [.simple ⟨1⟩])) (.array (.var ⟨3⟩)) ∧
      numberRegistry.box? .void = some ⟨1⟩ ∧
      numberRegistry.isAssignable (.simple ⟨1⟩) .void = false := by
  have hsubtype : numberRegistry.isSubtype (.simple ⟨1⟩) ⟨⟨2⟩, [.simple ⟨1⟩]⟩ = true :=
    isSubtype_iff_nearest.2 (.inr ⟨_, ⟨1, by decide⟩, .inr (.inr rfl)⟩)
  -- From the array to its elements, to the bound, to the class that stands for it.
  have htrue : numberRegistry.isAssignable (.array (.nominal ⟨2⟩ [.simple ⟨1⟩]))
      (.array (.var ⟨3⟩)) = true :=
    hsubtype
  exact ⟨htrue, (isAssignable_sound numberRegistry _ _).1 htrue, rfl,
    (isAssignable_sound numberRegistry _ (.var ⟨4⟩)).2.2⟩

end Registry

end MethodOperators
