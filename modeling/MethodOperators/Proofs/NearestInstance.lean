import MethodOperators.Proofs.Walk
import MethodOperators.Registry.Subtyping
import Mathlib.Data.List.Nodup

/-! A class type may have supertypes of one class at several argument lists. Subtyping decides by
the nearest of them alone: the fewest steps lead to it, and then it comes first in the order of the
clauses. -/

namespace MethodOperators

open Relation (ReflTransGen)

namespace ClassType

theorem eq_of_id_of_args {x y : ClassType} (hid : x.id = y.id) (hargs : x.args = y.args) :
    x = y := by
  cases x
  cases y
  simp_all

theorem toTy_inj {x y : ClassType} (h : x.toTy = y.toTy) : x = y :=
  eq_of_id_of_args (Ty.nominal.inj h).1 (Ty.nominal.inj h).2

theorem fits_iff {found wanted : ClassType} :
    found.fits wanted = true ↔ found.id = wanted.id ∧
      (wanted.args = [] ∨ found.args = [] ∨ found.args = wanted.args) := by
  simp [fits, or_assoc]

end ClassType

namespace Registry

variable {reg : Registry}

/-! ### Levels of the hierarchy -/

/-- The class types `n` steps above `ct`, one for each way up, in the order of the clauses. -/
def level (reg : Registry) (ct : ClassType) : Nat → List ClassType
  | 0 => [ct]
  | n + 1 => (reg.level ct n).flatMap reg.supertypes

/-- The class types at most `n` steps above `ct`, those that are nearer first. -/
def within (reg : Registry) (ct : ClassType) (n : Nat) : List ClassType :=
  (List.range (n + 1)).flatMap (reg.level ct)

/-- `reg.Nearest ct id x` says that among all instances of the class `id` that can be reached from
`ct`, the first one is `x` when nearer ones come first. -/
def Nearest (reg : Registry) (ct : ClassType) (id : ClassId) (x : ClassType) : Prop :=
  ∃ n, (reg.within ct n).find? (fun y => decide (y.id = id)) = some x

theorem within_zero (ct : ClassType) : reg.within ct 0 = [ct] := rfl

theorem within_succ (ct : ClassType) (n : Nat) :
    reg.within ct (n + 1) = ct :: (reg.within ct n).flatMap reg.supertypes := by
  have hlevels : (List.range (n + 1)).flatMap (fun m => reg.level ct (m + 1)) =
      (reg.within ct n).flatMap reg.supertypes := by
    rw [within, List.flatMap_assoc]
    rfl
  rw [within, List.range_succ_eq_map, List.flatMap_cons, List.flatMap_map, hlevels]
  rfl

theorem reaches_of_mem_level {ct x : ClassType} {n : Nat} (hx : x ∈ reg.level ct n) :
    ReflTransGen reg.Step ct x := by
  induction n generalizing x with
  | zero => rw [List.mem_singleton.1 hx]
  | succ n ih =>
    obtain ⟨y, hy, hstep⟩ := List.mem_flatMap.1 hx
    exact (ih hy).tail hstep

theorem exists_mem_level_of_reaches {ct x : ClassType} (h : ReflTransGen reg.Step ct x) :
    ∃ n, x ∈ reg.level ct n := by
  induction h with
  | refl => exact ⟨0, List.mem_singleton_self ct⟩
  | tail _ hstep ih =>
    obtain ⟨n, hn⟩ := ih
    exact ⟨n + 1, List.mem_flatMap.2 ⟨_, hn, hstep⟩⟩

theorem exists_mem_within_iff {ct x : ClassType} :
    (∃ n, x ∈ reg.within ct n) ↔ ReflTransGen reg.Step ct x := by
  constructor
  · rintro ⟨n, hn⟩
    obtain ⟨m, -, hm⟩ := List.mem_flatMap.1 hn
    exact reaches_of_mem_level hm
  · intro h
    obtain ⟨n, hn⟩ := exists_mem_level_of_reaches h
    exact ⟨n, List.mem_flatMap.2 ⟨n, List.mem_range.2 (Nat.lt_succ_self n), hn⟩⟩

theorem exists_nearest {ct x : ClassType} (h : ReflTransGen reg.Step ct x) :
    ∃ y, reg.Nearest ct x.id y := by
  obtain ⟨n, hn⟩ := exists_mem_within_iff.2 h
  have hsome : ((reg.within ct n).find? fun y => decide (y.id = x.id)).isSome = true :=
    List.find?_isSome.2 ⟨x, hn, decide_eq_true rfl⟩
  obtain ⟨y, hy⟩ := Option.isSome_iff_exists.1 hsome
  exact ⟨y, n, hy⟩

/-! ### What is found first -/

/-- Whatever is looked for by its class, what is found first in `cts` is found first in `cts'`. -/
def FirstIn (cts cts' : List ClassType) : Prop :=
  ∀ (p : ClassId → Bool) (x : ClassType),
    cts.find? (fun ct => p ct.id) = some x → cts'.find? (fun ct => p ct.id) = some x

theorem FirstIn.cons {cts cts' : List ClassType} (h : FirstIn cts cts') (ct : ClassType) :
    FirstIn (ct :: cts) (ct :: cts') := by
  intro p x hx
  cases hp : p ct.id with
  | true => simpa only [List.find?_cons, hp] using hx
  | false =>
    simp only [List.find?_cons, hp] at hx ⊢
    exact h p x hx

theorem map_id_supertypes (ct : ClassType) :
    (reg.supertypes ct).map ClassType.id = (reg.supertypes (.simple ct.id)).map ClassType.id := by
  cases hdecl : reg.class? ct.id with
  | none =>
    have hdecl' : reg.class? (ClassType.simple ct.id).id = none := hdecl
    rw [supertypes_of_undeclared hdecl, supertypes_of_undeclared hdecl']
  | some decl =>
    have hdecl' : reg.class? (ClassType.simple ct.id).id = some decl := hdecl
    rw [supertypes_of_declared hdecl, supertypes_of_declared hdecl']
    simp only [List.map_append, List.map_map]
    rfl

/-- Whether a class is above another does not depend on arguments. So the class type under which the
first match is found is itself the first one of its kind. -/
theorem FirstIn.flatMap_supertypes {cts cts' : List ClassType} (h : FirstIn cts cts') :
    FirstIn (cts.flatMap reg.supertypes) (cts'.flatMap reg.supertypes) := by
  intro p x hx
  let q : ClassId → Bool := fun id => ((reg.supertypes (.simple id)).map ClassType.id).any p
  have hq (ct : ClassType) :
      ((reg.supertypes ct).find? fun sup => p sup.id) = none ↔ q ct.id = false := by
    have hany : q ct.id = ((reg.supertypes ct).map ClassType.id).any p :=
      congrArg (List.any · p) (map_id_supertypes ct).symm
    rw [hany, List.any_map, List.any_eq_false, List.find?_eq_none]
    rfl
  rw [List.find?_flatMap, List.findSome?_eq_some_iff] at hx
  obtain ⟨before, ct, after, hsplit, hfound, hbefore⟩ := hx
  have hct : q ct.id = true := by
    cases hnone : q ct.id with
    | true => rfl
    | false =>
      rw [(hq ct).2 hnone] at hfound
      cases hfound
  have hfirst : cts.find? (fun ct => q ct.id) = some ct := by
    refine List.find?_eq_some_iff_append.2 ⟨hct, before, after, hsplit, fun y hy => ?_⟩
    simpa using (hq y).1 (hbefore y hy)
  obtain ⟨-, before', after', hsplit', hbefore'⟩ := List.find?_eq_some_iff_append.1 (h q ct hfirst)
  rw [List.find?_flatMap, List.findSome?_eq_some_iff]
  refine ⟨before', ct, after', hsplit', hfound, fun y hy => (hq y).2 ?_⟩
  simpa using hbefore' y hy

/-! ### Breadth-first walks -/

/-- A breadth-first walk puts the supertypes of what it looks at behind all that is pending, in the
order in which it looks. What it passes over has a class that it has seen, and is not the first. -/
theorem find?_walk_breadthFirst (p : ClassId → Bool) (seen : List ClassId)
    (pending : List ClassType) (hseen : ∀ id ∈ seen, p id = false) :
    (reg.walk .breadthFirst seen pending).find? (fun ct => p ct.id) =
      (pending ++ (reg.walk .breadthFirst seen pending).flatMap reg.supertypes).find?
        (fun ct => p ct.id) := by
  induction seen, pending using walk_induction reg .breadthFirst with
  | nil seen => rw [walk_nil, List.flatMap_nil, List.append_nil]
  | skip seen ct pending hmem ih =>
    rw [walk_cons_of_mem hmem, List.cons_append, List.find?_cons, hseen ct.id hmem]
    exact ih hseen
  | visit seen ct pending hmem ih =>
    rw [walk_cons_of_notMem hmem, List.cons_append, List.find?_cons, List.find?_cons]
    cases hp : p ct.id with
    | true => rfl
    | false =>
      have hseen' : ∀ id ∈ ct.id :: seen, p id = false := by
        intro id hid
        rcases List.mem_cons.1 hid with rfl | hid
        · exact hp
        · exact hseen id hid
      have hqueue := ih hseen'
      simp only [Order.schedule, List.append_assoc] at hqueue
      simp only [Order.schedule, List.flatMap_cons]
      exact hqueue

theorem firstIn_ancestors_of_within (ct : ClassType) (n : Nat) :
    FirstIn (reg.within ct n) (reg.ancestors .breadthFirst ct) := by
  induction n with
  | zero =>
    intro p x hx
    rw [within_zero, List.find?_cons] at hx
    rw [ancestors_eq_cons, List.find?_cons]
    cases hp : p ct.id with
    | true => simpa only [hp] using hx
    | false => simp [hp] at hx
  | succ n ih =>
    intro p x hx
    rw [ancestors, find?_walk_breadthFirst p [] [ct] (fun _ hid => absurd hid List.not_mem_nil)]
    rw [within_succ] at hx
    exact ih.flatMap_supertypes.cons ct p x hx

/-- A breadth-first walk looks at the nearest instance of each class. -/
theorem nearest_iff {ct x : ClassType} {id : ClassId} :
    reg.Nearest ct id x ↔
      (reg.ancestors .breadthFirst ct).find? (fun y => decide (y.id = id)) = some x := by
  constructor
  · rintro ⟨n, hn⟩
    exact firstIn_ancestors_of_within ct n (fun i => decide (i = id)) x hn
  · intro hx
    have hid : x.id = id := by simpa using List.find?_some hx
    have hreach := reaches_of_mem_ancestors (List.mem_of_find?_eq_some hx)
    obtain ⟨y, n, hy⟩ := exists_nearest hreach
    rw [hid] at hy
    -- What is found first within `n` steps is what the walk finds first.
    have hwalk := firstIn_ancestors_of_within ct n (fun i => decide (i = id)) y hy
    rw [hx] at hwalk
    exact ⟨n, hwalk ▸ hy⟩

theorem Nearest.unique {ct x y : ClassType} {id : ClassId} (hx : reg.Nearest ct id x)
    (hy : reg.Nearest ct id y) : x = y :=
  Option.some.inj ((nearest_iff.1 hx).symm.trans (nearest_iff.1 hy))

theorem Nearest.reaches {ct x : ClassType} {id : ClassId} (h : reg.Nearest ct id x) :
    ReflTransGen reg.Step ct x ∧ x.id = id := by
  have hfind := nearest_iff.1 h
  exact ⟨reaches_of_mem_ancestors (List.mem_of_find?_eq_some hfind),
    by simpa using List.find?_some hfind⟩

/-! ### Subtyping of class types -/

/-- The class `id` can be reached from `ct` at one argument list at most. -/
def OneInstance (reg : Registry) (ct : ClassType) (id : ClassId) : Prop :=
  ∀ x y, ReflTransGen reg.Step ct x → ReflTransGen reg.Step ct y → x.id = id → y.id = id →
    x.args = y.args

theorem isRoot_iff {id : ClassId} : reg.isRoot id = true ↔ reg.root = some id := by
  simp [isRoot]

theorem isSubtype_iff_nearest {sub sup : ClassType} :
    reg.isSubtype sub sup = true ↔ reg.root = some sup.id ∨
      ∃ x, reg.Nearest sub sup.id x ∧ (sup.args = [] ∨ x.args = [] ∨ x.args = sup.args) := by
  rw [isSubtype, Bool.or_eq_true, isRoot_iff, List.any_eq_true]
  refine or_congr_right ⟨?_, ?_⟩
  · rintro ⟨x, hx, hfits⟩
    obtain ⟨hid, hargs⟩ := ClassType.fits_iff.1 hfits
    -- The walk looks at one instance of the class only.
    obtain ⟨y, hy⟩ := exists_nearest (reaches_of_mem_ancestors hx)
    have hmem := List.mem_of_find?_eq_some (nearest_iff.1 hy)
    have hyx : y = x :=
      List.inj_on_of_nodup_map (nodup_ancestors .breadthFirst sub) hmem hx hy.reaches.2
    exact ⟨x, hid ▸ hyx ▸ hy, hargs⟩
  · rintro ⟨x, hx, hargs⟩
    exact ⟨x, List.mem_of_find?_eq_some (nearest_iff.1 hx),
      ClassType.fits_iff.2 ⟨hx.reaches.2, hargs⟩⟩

theorem isSubtype_self (ct : ClassType) : reg.isSubtype ct ct = true := by
  have hself : ct.fits ct = true := ClassType.fits_iff.2 ⟨rfl, .inr (.inr rfl)⟩
  rw [isSubtype, ancestors_eq_cons, List.any_cons, hself, Bool.true_or, Bool.or_true]

theorem isAssignable_toTy (sub sup : ClassType) :
    reg.isAssignable sup.toTy sub.toTy = reg.isSubtype sub sup := by
  have hvoid : ¬ (sup.toTy = .void ∨ sub.toTy = .void) := by simp [ClassType.toTy, Ty.void]
  rw [isAssignable, assignableWithin.eq_def]
  simp only [if_neg hvoid]
  by_cases hsame : sup.toTy = sub.toTy
  · rw [if_pos hsame, ClassType.toTy_inj hsame, isSubtype_self]
  · rw [if_neg hsame]
    rfl

/-- Without arguments, subtyping is reachability of classes. -/
theorem isAssignable_simple_iff {sub sup : ClassId} :
    reg.isAssignable (.simple sup) (.simple sub) = true ↔
      reg.root = some sup ∨ ReflTransGen reg.Extends sub sup := by
  have hsubtype : reg.isAssignable (.simple sup) (.simple sub) =
      reg.isSubtype (.simple sub) (.simple sup) := isAssignable_toTy (.simple sub) (.simple sup)
  have hreach : ReflTransGen reg.Extends sub sup ↔
      sup ∈ (reg.ancestors .breadthFirst (.simple sub)).map ClassType.id :=
    (@id_mem_ancestors_iff reg .breadthFirst (.simple sub) sup).symm
  rw [hsubtype, hreach, isSubtype, Bool.or_eq_true, isRoot_iff, List.any_eq_true, List.mem_map]
  -- The wanted class is raw, so that every instance of it fits.
  have hfits (x : ClassType) : x.fits (.simple sup) = true ↔ x.id = sup := by
    simp [ClassType.fits_iff, ClassType.simple]
  simp only [hfits]
  exact Iff.rfl

/-- A class type may be used as another if that is of the root class, or if the nearest instance of
its class has the same arguments or one of the two is raw. As long as the arguments do not matter or
the class is reached at one argument list only, any instance will do. -/
theorem isAssignable_iff_nearest (reg : Registry) (sub sup : ClassType) :
    (reg.isAssignable sup.toTy sub.toTy = true ↔ reg.root = some sup.id ∨
      ∃ x, reg.Nearest sub sup.id x ∧ (sup.args = [] ∨ x.args = [] ∨ x.args = sup.args)) ∧
    (sup.args = [] ∨ reg.OneInstance sub sup.id →
      (reg.isAssignable sup.toTy sub.toTy = true ↔ reg.root = some sup.id ∨
        ∃ x, ReflTransGen reg.Step sub x ∧ x.id = sup.id ∧
          (sup.args = [] ∨ x.args = [] ∨ x.args = sup.args))) := by
  rw [isAssignable_toTy, isSubtype_iff_nearest]
  refine ⟨Iff.rfl, fun hone => or_congr_right ⟨?_, ?_⟩⟩
  · rintro ⟨x, hx, hargs⟩
    obtain ⟨hreach, hid⟩ := hx.reaches
    exact ⟨x, hreach, hid, hargs⟩
  · rintro ⟨x, hreach, hid, hargs⟩
    obtain ⟨y, hy⟩ := exists_nearest hreach
    rw [hid] at hy
    refine ⟨y, hy, ?_⟩
    rcases hone with hraw | hone
    · exact .inl hraw
    · obtain ⟨hreach', hid'⟩ := hy.reaches
      rwa [hone y x hreach' hreach hid' hid]

/-- A class `Feed` that implements `Source<int>` and `Source<long>`. -/
def feedDecl : ClassDecl where
  id := ⟨1⟩
  name := "Feed"
  interfaces := [⟨⟨2⟩, [.primitive .int]⟩, ⟨⟨2⟩, [.primitive .long]⟩]

/-- A registry of `Feed`, the generic interface `Source`, and a root. -/
def feedRegistry : Registry :=
  { Registry.empty ⟨0⟩ with
    classes := [feedDecl, { id := ⟨2⟩, name := "Source", modifiers := ⟨true⟩, typeParams := [⟨0⟩] },
      { id := ⟨0⟩, name := "Object" }].foldl ClassTable.declare .empty
    typeParams := #[⟨"T", none⟩]
    root := some ⟨0⟩ }

theorem isAssignable_iff_nearest_feed :
    feedRegistry.isAssignable (.simple ⟨2⟩) (.simple ⟨1⟩) = true ∧
      feedRegistry.isAssignable (.nominal ⟨2⟩ [.primitive .int]) (.simple ⟨1⟩) = true := by
  have hstep : feedRegistry.Step (.simple ⟨1⟩) ⟨⟨2⟩, [.primitive .int]⟩ := by
    rw [Step]
    decide
  have hnearest : feedRegistry.Nearest (.simple ⟨1⟩) ⟨2⟩ ⟨⟨2⟩, [.primitive .int]⟩ := ⟨1, by decide⟩
  obtain ⟨-, hraw⟩ := isAssignable_iff_nearest feedRegistry (.simple ⟨1⟩) (.simple ⟨2⟩)
  obtain ⟨hint, -⟩ := isAssignable_iff_nearest feedRegistry (.simple ⟨1⟩) ⟨⟨2⟩, [.primitive .int]⟩
  exact ⟨(hraw (.inl rfl)).2 (.inr ⟨_, .single hstep, rfl, .inl rfl⟩),
    hint.2 (.inr ⟨_, hnearest, .inr (.inr rfl)⟩)⟩

/-- The second of two clauses for one interface does not count, although it is a step up. -/
theorem not_isAssignable_second_clause :
    ¬ (feedRegistry.isAssignable (.nominal ⟨2⟩ [.primitive .long]) (.simple ⟨1⟩) = true ↔
      feedRegistry.root = some ⟨2⟩ ∨
        ∃ x, ReflTransGen feedRegistry.Step (.simple ⟨1⟩) x ∧ x.id = ⟨2⟩ ∧
          (([.primitive .long] : List Ty) = [] ∨ x.args = [] ∨ x.args = [.primitive .long])) := by
  have hstep : feedRegistry.Step (.simple ⟨1⟩) ⟨⟨2⟩, [.primitive .long]⟩ := by
    rw [Step]
    decide
  have hnearest : feedRegistry.Nearest (.simple ⟨1⟩) ⟨2⟩ ⟨⟨2⟩, [.primitive .int]⟩ := ⟨1, by decide⟩
  have hsubtype : ¬ feedRegistry.isSubtype (.simple ⟨1⟩) ⟨⟨2⟩, [.primitive .long]⟩ = true := by
    rw [isSubtype_iff_nearest]
    rintro (hroot | ⟨x, hx, hargs⟩)
    · exact absurd hroot (by decide)
    · rw [hx.unique hnearest] at hargs
      exact absurd hargs (by decide)
  intro h
  have htrue := h.2 (.inr ⟨_, .single hstep, rfl, .inr (.inr rfl)⟩)
  exact hsubtype ((isAssignable_toTy (.simple ⟨1⟩) ⟨⟨2⟩, [.primitive .long]⟩).symm.trans htrue)

end Registry

end MethodOperators
