import MethodOperators.Proofs.Substitutability

/-! Classes are ordered by subtyping, as long as nothing is above the root. With arguments subtyping
is transitive from a class type that reaches each class at one argument list, of the right length.
-/

namespace MethodOperators

open Relation (ReflTransGen TransGen)

namespace Registry

variable {reg : Registry}

/-! ### The root -/

/-- The root, if there is one and it is declared, has no superclass and no interfaces. -/
def RootIsTop (reg : Registry) : Prop :=
  ∀ root decl, reg.root = some root → reg.class? root = some decl →
    decl.superclass = none ∧ decl.interfaces = []

theorem RootIsTop.supertypes_eq_nil (h : reg.RootIsTop) {ct : ClassType}
    (hroot : reg.root = some ct.id) : reg.supertypes ct = [] := by
  cases hdecl : reg.class? ct.id with
  | none => exact supertypes_of_undeclared hdecl
  | some decl =>
    obtain ⟨hsuperclass, hinterfaces⟩ := h ct.id decl hroot hdecl
    have hclauses : decl.clauses = [] := by simp [ClassDecl.clauses, hsuperclass, hinterfaces]
    have himplicit : reg.implicitRoot? decl = none := by
      rw [Option.eq_none_iff_forall_ne_some]
      intro root hsome
      obtain ⟨-, hroot', hne⟩ := implicitRoot?_eq_some_iff.1 hsome
      rw [id_of_class? hdecl] at hne
      exact hne (Option.some.inj (hroot'.symm.trans hroot))
    rw [supertypes_of_declared hdecl, hclauses, himplicit]
    rfl

theorem RootIsTop.eq_of_steps (h : reg.RootIsTop) {ct x : ClassType}
    (hroot : reg.root = some ct.id) (hreach : ReflTransGen reg.Step ct x) : x = ct := by
  rcases hreach.cases_head with heq | ⟨sup, hstep, -⟩
  · exact heq.symm
  · rw [Step, h.supertypes_eq_nil hroot] at hstep
    exact absurd hstep List.not_mem_nil

theorem RootIsTop.not_extends (h : reg.RootIsTop) {root sup : ClassId}
    (hroot : reg.root = some root) : ¬ reg.Extends root sup := by
  intro hextends
  obtain ⟨x, hstep, -⟩ := (@extends_iff reg (.simple root) sup).1 hextends
  have hnil : reg.supertypes (.simple root) = [] := h.supertypes_eq_nil hroot
  rw [Step, hnil] at hstep
  exact List.not_mem_nil hstep

theorem RootIsTop.eq_of_reaches (h : reg.RootIsTop) {root sup : ClassId}
    (hroot : reg.root = some root) (hreach : ReflTransGen reg.Extends root sup) : sup = root := by
  rcases hreach.cases_head with heq | ⟨_, hextends, -⟩
  · exact heq.symm
  · exact absurd hextends (h.not_extends hroot)

/-! ### Classes without arguments -/

/-- `reg.Names id sup` says that the class `id` is declared with a clause for the class `sup`. -/
def Names (reg : Registry) (id sup : ClassId) : Prop :=
  ∃ decl, reg.class? id = some decl ∧ ∃ ct ∈ decl.clauses, ct.id = sup

/-- Nothing is above the root, so that a way up which takes the implicit step to it ends there. -/
theorem RootIsTop.names_of_reaches (h : reg.RootIsTop) {id sup : ClassId}
    (hreach : ReflTransGen reg.Extends id sup) (hsup : reg.root ≠ some sup) :
    ReflTransGen reg.Names id sup := by
  induction hreach with
  | refl => exact .refl
  | @tail mid sup _ hextends ih =>
    have hmid : reg.root ≠ some mid := fun hroot => h.not_extends hroot hextends
    cases hextends with
    | clause hdecl hclause => exact (ih hmid).tail ⟨_, hdecl, _, hclause, rfl⟩
    | root _ _ hroot _ => exact absurd hroot hsup

theorem RootIsTop.isAssignable_simple_trans (h : reg.RootIsTop) {a b c : ClassId}
    (hab : reg.isAssignable (.simple b) (.simple a) = true)
    (hbc : reg.isAssignable (.simple c) (.simple b) = true) :
    reg.isAssignable (.simple c) (.simple a) = true := by
  rw [isAssignable_simple_iff] at hab hbc ⊢
  rcases hbc with hroot | hbc
  · exact .inl hroot
  · rcases hab with hroot | hab
    · -- The root reaches nothing but itself.
      rw [h.eq_of_reaches hroot hbc]
      exact .inl hroot
    · exact .inr (hab.trans hbc)

theorem RootIsTop.isAssignable_simple_antisymm (h : reg.RootIsTop)
    (hacyclic : ∀ id, ¬ TransGen reg.Names id id) {a b : ClassId}
    (hab : reg.isAssignable (.simple b) (.simple a) = true)
    (hba : reg.isAssignable (.simple a) (.simple b) = true) : a = b := by
  rw [isAssignable_simple_iff] at hab hba
  by_cases hb : reg.root = some b
  · rcases hba with ha | hba
    · exact Option.some.inj (ha.symm.trans hb)
    · exact h.eq_of_reaches hb hba
  · have hab := hab.resolve_left hb
    by_cases ha : reg.root = some a
    · exact (h.eq_of_reaches ha hab).symm
    · -- Both ways are by clauses alone, and together they go round unless they are empty.
      have hup := h.names_of_reaches hab hb
      have hdown := h.names_of_reaches (hba.resolve_left ha) ha
      rcases Relation.reflTransGen_iff_eq_or_transGen.1 hup with heq | hup
      · exact heq.symm
      · exact absurd (hup.trans_left hdown) (hacyclic a)

/-- If nothing is above the root, classes without arguments are preordered by subtyping, with the
classes that a clause names above the class that it belongs to. If the clauses do not go round, two
classes that are below each other are the same. -/
theorem isAssignable_simple_order (h : reg.RootIsTop) :
    (∀ a b, reg.Names a b → reg.isAssignable (.simple b) (.simple a) = true) ∧
    (∀ a, reg.isAssignable (.simple a) (.simple a) = true) ∧
    (∀ a b c, reg.isAssignable (.simple b) (.simple a) = true →
      reg.isAssignable (.simple c) (.simple b) = true →
        reg.isAssignable (.simple c) (.simple a) = true) ∧
    ((∀ id, ¬ TransGen reg.Names id id) → ∀ a b,
      reg.isAssignable (.simple b) (.simple a) = true →
        reg.isAssignable (.simple a) (.simple b) = true → a = b) := by
  refine ⟨fun a b hnames => ?_, fun a => ?_, fun a b c => h.isAssignable_simple_trans,
    fun hacyclic a b => h.isAssignable_simple_antisymm hacyclic⟩
  · obtain ⟨decl, hdecl, ct, hct, rfl⟩ := hnames
    exact isAssignable_simple_iff.2 (.inr (.single (.clause hdecl hct)))
  · exact isAssignable_simple_iff.2 (.inr .refl)

/-- Clauses do not go round if each one leads to a class of higher rank. -/
theorem not_transGen_names_of_rank (rank : ClassId → Nat)
    (hrank : ∀ decl ∈ reg.classes.decls, ∀ ct ∈ decl.clauses, rank decl.id < rank ct.id)
    (id : ClassId) : ¬ TransGen reg.Names id id := by
  have hstep {a b : ClassId} (h : reg.Names a b) : rank a < rank b := by
    obtain ⟨decl, hdecl, ct, hct, rfl⟩ := h
    rw [← id_of_class? hdecl]
    exact hrank decl (ClassTable.mem_of_find? hdecl) ct hct
  have hlt {a b : ClassId} (h : TransGen reg.Names a b) : rank a < rank b := by
    induction h with
    | single h => exact hstep h
    | tail _ h ih => exact Nat.lt_trans ih (hstep h)
  exact fun h => Nat.lt_irrefl _ (hlt h)

theorem pairRegistry_rootIsTop : pairRegistry.RootIsTop := by
  intro root decl hroot hdecl
  obtain rfl : (⟨0⟩ : ClassId) = root := Option.some.inj hroot
  have hobject : pairRegistry.class? ⟨0⟩ = some { id := ⟨0⟩, name := "Object" } := by decide
  obtain rfl := Option.some.inj (hobject.symm.trans hdecl)
  exact ⟨rfl, rfl⟩

/-- `Pair` is below `Base` and this below `Shape`, and `Shape` is not below `Pair`. -/
theorem isAssignable_simple_order_pair :
    pairRegistry.RootIsTop ∧ (∀ id, ¬ TransGen pairRegistry.Names id id) ∧
      pairRegistry.isAssignable (.simple ⟨3⟩) (.simple ⟨1⟩) = true ∧
      pairRegistry.isAssignable (.simple ⟨1⟩) (.simple ⟨3⟩) ≠ true := by
  have hrank (id : ClassId) : ¬ TransGen pairRegistry.Names id id :=
    not_transGen_names_of_rank (fun id => id.bits.toNat) (by decide) id
  obtain ⟨hclause, -, htrans, hantisymm⟩ := isAssignable_simple_order pairRegistry_rootIsTop
  have hpair : pairRegistry.Names ⟨1⟩ ⟨2⟩ := ⟨_, rfl, by decide⟩
  have hbase : pairRegistry.Names ⟨2⟩ ⟨3⟩ := ⟨_, rfl, by decide⟩
  have hshape := htrans _ _ _ (hclause _ _ hpair) (hclause _ _ hbase)
  refine ⟨pairRegistry_rootIsTop, hrank, hshape, fun hback => ?_⟩
  exact absurd (hantisymm hrank _ _ hshape hback) (by decide)

/-! ### Class types with arguments -/

/-- A class type with one argument for each parameter of its class, if that is declared. -/
def FullArity (reg : Registry) (ct : ClassType) : Prop :=
  ∀ decl, reg.class? ct.id = some decl → ct.args.length = decl.typeParams.length

/-- Every class that is reached from a class type is declared, and is reached at one argument list
only, which has one argument for each of its parameters. -/
structure Coherent (reg : Registry) (ct : ClassType) : Prop where
  declared : ∀ x, ReflTransGen reg.Step ct x → reg.contains x.id = true
  fullArity : ∀ x, ReflTransGen reg.Step ct x → reg.FullArity x
  oneInstance : ∀ id, reg.OneInstance ct id

theorem FullArity.args_eq {x y : ClassType} (hx : reg.FullArity x) (hy : reg.FullArity y)
    (hdeclared : reg.contains x.id = true) (hid : x.id = y.id)
    (hargs : y.args = [] ∨ x.args = [] ∨ x.args = y.args) : x.args = y.args := by
  obtain ⟨decl, hdecl⟩ := Option.isSome_iff_exists.1 hdeclared
  have hdecl' : reg.class? y.id = some decl := hid ▸ hdecl
  have hlength : x.args.length = y.args.length := (hx decl hdecl).trans (hy decl hdecl').symm
  rcases hargs with hnil | hnil | heq
  · rw [hnil, List.length_nil] at hlength
    rw [hnil, List.eq_nil_of_length_eq_zero hlength]
  · rw [hnil, List.length_nil] at hlength
    rw [hnil, List.eq_nil_of_length_eq_zero hlength.symm]
  · exact heq

/-- Where a class is reached at one argument list only, any way up to it will do. -/
theorem isSubtype_of_reaches {sub sup x : ClassType} (hone : reg.OneInstance sub sup.id)
    (hreach : ReflTransGen reg.Step sub x) (hid : x.id = sup.id)
    (hargs : sup.args = [] ∨ x.args = [] ∨ x.args = sup.args) : reg.isSubtype sub sup = true := by
  obtain ⟨y, hy⟩ := exists_nearest hreach
  rw [hid] at hy
  obtain ⟨hreach', hid'⟩ := hy.reaches
  rw [← hone y x hreach' hreach hid' hid] at hargs
  exact isSubtype_iff_nearest.2 (.inr ⟨y, hy, hargs⟩)

/-- A supertype of a coherent class type is the root, or is itself what the way up comes to. -/
theorem Coherent.reaches_of_isSubtype {sub sup : ClassType} (h : reg.Coherent sub)
    (hsup : reg.FullArity sup) (hsubtype : reg.isSubtype sub sup = true) :
    reg.root = some sup.id ∨ ReflTransGen reg.Step sub sup := by
  rcases isSubtype_iff_nearest.1 hsubtype with hroot | ⟨x, hx, hargs⟩
  · exact .inl hroot
  · obtain ⟨hreach, hid⟩ := hx.reaches
    have hsame := (h.fullArity x hreach).args_eq hsup (h.declared x hreach) hid hargs
    exact .inr (ClassType.eq_of_id_of_args hid hsame ▸ hreach)

theorem Coherent.isSubtype_trans {d b a : ClassType} (hd : reg.Coherent d) (h : reg.RootIsTop)
    (hb : reg.FullArity b) (hdb : reg.isSubtype d b = true) (hba : reg.isSubtype b a = true) :
    reg.isSubtype d a = true := by
  rcases isSubtype_iff_nearest.1 hba with hroot | ⟨x, hx, hargs⟩
  · exact isSubtype_iff_nearest.2 (.inl hroot)
  · obtain ⟨hreach, hid⟩ := hx.reaches
    rcases hd.reaches_of_isSubtype hb hdb with hroot | hdb
    · -- The root reaches nothing but itself, so that `a` is of the root class as well.
      rw [h.eq_of_steps hroot hreach] at hid
      exact isSubtype_iff_nearest.2 (.inl (hid ▸ hroot))
    · exact isSubtype_of_reaches (hd.oneInstance a.id) (hdb.trans hreach) hid hargs

/-- If nothing is above the root, subtyping from a coherent class type is transitive, by way of
class types with all their arguments, and everything that can be reached is above. -/
theorem isAssignable_trans_of_coherent (h : reg.RootIsTop) {d : ClassType} (hd : reg.Coherent d) :
    (∀ x, ReflTransGen reg.Step d x → reg.isAssignable x.toTy d.toTy = true) ∧
    ∀ b a : ClassType, reg.FullArity b → reg.isAssignable b.toTy d.toTy = true →
      reg.isAssignable a.toTy b.toTy = true → reg.isAssignable a.toTy d.toTy = true := by
  simp only [isAssignable_toTy]
  refine ⟨fun x hreach => ?_, fun b a hb hdb hba => hd.isSubtype_trans h hb hdb hba⟩
  exact isSubtype_of_reaches (hd.oneInstance x.id) hreach rfl (.inr (.inr rfl))

/-- Whatever lies in a list of class types with all their arguments is coherent, if the list holds
each class once and includes all supertypes. -/
theorem coherent_of_closed {cts : List ClassType} (hnodup : (cts.map ClassType.id).Nodup)
    (hclosed : ∀ x ∈ cts, ∀ y ∈ reg.supertypes x, y ∈ cts)
    (hfull : ∀ x ∈ cts, ∃ decl ∈ reg.classes.decls, decl.id = x.id ∧
      x.args.length = decl.typeParams.length) {ct : ClassType} (hct : ct ∈ cts) :
    reg.Coherent ct := by
  have hdecl (x : ClassType) (hx : ReflTransGen reg.Step ct x) :
      ∃ decl, reg.class? x.id = some decl ∧ x.args.length = decl.typeParams.length := by
    obtain ⟨decl, hmem, hid, hlength⟩ := hfull x (mem_of_reaches_of_closed hclosed hct hx)
    exact ⟨decl, hid ▸ ClassTable.find?_of_mem hmem, hlength⟩
  refine ⟨fun x hx => ?_, fun x hx decl' hdecl' => ?_, oneInstance_of_closed hnodup hclosed hct⟩
  · obtain ⟨decl, hsome, -⟩ := hdecl x hx
    exact Option.isSome_iff_exists.2 ⟨decl, hsome⟩
  · obtain ⟨decl, hsome, hlength⟩ := hdecl x hx
    obtain rfl := Option.some.inj (hsome.symm.trans hdecl')
    exact hlength

/-- From `Pair<int>` to `Base<int>`, and from there to `Shape<int[]>`, which is above `Pair<int>` in
two ways. -/
theorem isAssignable_trans_of_coherent_pair :
    pairRegistry.RootIsTop ∧
      pairRegistry.Coherent ⟨⟨1⟩, [.primitive .int]⟩ ∧
      pairRegistry.FullArity ⟨⟨2⟩, [.primitive .int]⟩ ∧
      pairRegistry.isAssignable (.nominal ⟨2⟩ [.primitive .int])
        (.nominal ⟨1⟩ [.primitive .int]) = true ∧
      pairRegistry.isAssignable (.nominal ⟨3⟩ [.array (.primitive .int)])
        (.nominal ⟨2⟩ [.primitive .int]) = true ∧
      pairRegistry.isAssignable (.nominal ⟨3⟩ [.array (.primitive .int)])
        (.nominal ⟨1⟩ [.primitive .int]) = true := by
  have hnodup : (List.map ClassType.id [⟨⟨1⟩, [.primitive .int]⟩, ⟨⟨2⟩, [.primitive .int]⟩,
      ⟨⟨3⟩, [.array (.primitive .int)]⟩, .simple ⟨0⟩]).Nodup := by
    decide
  have hpair : pairRegistry.Coherent ⟨⟨1⟩, [.primitive .int]⟩ :=
    coherent_of_closed hnodup (by decide) (by decide) (by decide)
  have hbase : pairRegistry.Coherent ⟨⟨2⟩, [.primitive .int]⟩ :=
    coherent_of_closed hnodup (by decide) (by decide) (by decide)
  have harity := hbase.fullArity _ .refl
  have hpairStep : pairRegistry.Step ⟨⟨1⟩, [.primitive .int]⟩ ⟨⟨2⟩, [.primitive .int]⟩ := by
    rw [Step]
    decide
  have hbaseStep : pairRegistry.Step ⟨⟨2⟩, [.primitive .int]⟩
      ⟨⟨3⟩, [.array (.primitive .int)]⟩ := by
    rw [Step]
    decide
  obtain ⟨habove, htrans⟩ := isAssignable_trans_of_coherent pairRegistry_rootIsTop hpair
  obtain ⟨habove', -⟩ := isAssignable_trans_of_coherent pairRegistry_rootIsTop hbase
  have hup := habove _ (.single hpairStep)
  have hon := habove' _ (.single hbaseStep)
  exact ⟨pairRegistry_rootIsTop, hpair, harity, hup, hon, htrans _ _ harity hup hon⟩

end Registry

end MethodOperators
