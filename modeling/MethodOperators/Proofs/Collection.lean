import MethodOperators.Proofs.Enumeration

/-! A procedure that calls itself to collect the methods of a class. It neither looks for the name
beforehand nor counts how far up it is. -/

namespace MethodOperators

/-- What is left when methods have been collected after some classes had been seen. -/
structure Collected (before : List ClassId) where
  seen : List ClassId
  /-- What had been seen before is among them. -/
  subset : before ⊆ seen
  methods : List (Signature Ty)

/-- Methods found earlier are put in front. -/
def Collected.after {before earlier : List ClassId} (c : Collected before) (h : earlier ⊆ before)
    (found : List (Signature Ty)) : Collected earlier :=
  ⟨c.seen, List.Subset.trans h c.subset, found ++ c.methods⟩

namespace Registry

/-- Collects the methods of one name from each of some class types and all that is above it. -/
def collect (reg : Registry) (name : String) (seen : List ClassId) :
    List ClassType → Collected seen
  | [] => ⟨seen, List.Subset.refl seen, []⟩
  | ct :: rest =>
    if _hs : ct.id ∈ seen then collect reg name seen rest
    else match _h : reg.class? ct.id with
      | none => (collect reg name (ct.id :: seen) rest).after (List.subset_cons_self _ _) []
      | some _ =>
        let above := collect reg name (ct.id :: seen) (reg.supertypes ct)
        (collect reg name above.seen rest).after
          (List.Subset.trans (List.subset_cons_self _ _) above.subset)
          (reg.ownOverloads name ct ++ above.methods)
termination_by cts => (reg.classes.unseen seen, cts.length)
decreasing_by
  · exact Prod.Lex.right _ (Nat.lt_succ_self _)
  · rcases Nat.lt_or_eq_of_le (reg.classes.unseen_cons_le ct.id seen) with hlt | heq
    · exact Prod.Lex.left _ _ hlt
    · rw [heq]
      exact Prod.Lex.right _ (Nat.lt_succ_self _)
  · exact Prod.Lex.left _ _ (ClassTable.unseen_cons_lt _h _hs)
  · refine Prod.Lex.left _ _ ?_
    exact Nat.lt_of_le_of_lt (reg.classes.unseen_le_of_subset above.subset)
      (ClassTable.unseen_cons_lt _h _hs)

variable {reg : Registry}

theorem collect_nil (name : String) (seen : List ClassId) :
    reg.collect name seen [] = ⟨seen, List.Subset.refl seen, []⟩ := by
  rw [collect]

theorem collect_cons_of_mem {name : String} {seen : List ClassId} {ct : ClassType}
    {rest : List ClassType} (h : ct.id ∈ seen) :
    reg.collect name seen (ct :: rest) = reg.collect name seen rest := by
  rw [collect, dif_pos h]

/-- A class that is not declared has no supertypes and no methods, so that it needs no case of its
own. -/
theorem collect_cons_of_notMem (reg : Registry) (name : String) {seen : List ClassId}
    {ct : ClassType} (rest : List ClassType) (h : ct.id ∉ seen) :
    let above := reg.collect name (ct.id :: seen) (reg.supertypes ct)
    let later := reg.collect name above.seen rest
    (reg.collect name seen (ct :: rest)).seen = later.seen ∧
      (reg.collect name seen (ct :: rest)).methods =
        reg.ownOverloads name ct ++ above.methods ++ later.methods := by
  rw [collect, dif_neg h]
  split
  · rename_i hnone
    have hown : reg.ownOverloads name ct = [] := by simp only [ownOverloads, hnone]
    rw [supertypes_of_undeclared hnone, collect_nil, hown]
    exact ⟨rfl, rfl⟩
  · exact ⟨rfl, rfl⟩

/-- One call looks at each class type in turn, passing over it or going on to what is above it. -/
@[elab_as_elim]
theorem collect_induction (reg : Registry) (name : String)
    {motive : List ClassId → List ClassType → Prop}
    (nil : ∀ seen, motive seen [])
    (skip : ∀ seen ct rest, ct.id ∈ seen → motive seen rest → motive seen (ct :: rest))
    (visit : ∀ seen ct rest, ct.id ∉ seen →
      motive (ct.id :: seen) (reg.supertypes ct) →
      motive (reg.collect name (ct.id :: seen) (reg.supertypes ct)).seen rest →
      motive seen (ct :: rest)) :
    ∀ seen cts, motive seen cts := by
  intro seen cts
  induction seen, cts using collect.induct reg name with
  | case1 seen => exact nil seen
  | case2 seen ct rest hmem ih => exact skip seen ct rest hmem ih
  | case3 seen ct rest hmem hnone ih =>
    have hsup := supertypes_of_undeclared hnone
    refine visit seen ct rest hmem (hsup ▸ nil _) ?_
    rwa [hsup, collect_nil]
  | case4 seen ct rest hmem decl hdecl above ihabove ihrest =>
    exact visit seen ct rest hmem ihabove ihrest

/-- A depth-first walk keeps what a call would come back to in the list of what is pending. -/
theorem flatMap_walk_append (name : String) (seen : List ClassId) (cts : List ClassType) :
    ∀ pending, (reg.walk .depthFirst seen (cts ++ pending)).flatMap (reg.ownOverloads name) =
      (reg.collect name seen cts).methods ++
        (reg.walk .depthFirst (reg.collect name seen cts).seen pending).flatMap
          (reg.ownOverloads name) := by
  induction seen, cts using collect_induction reg name with
  | nil seen =>
    intro pending
    rw [collect_nil, List.nil_append, List.nil_append]
  | skip seen ct rest hmem ih =>
    intro pending
    rw [List.cons_append, walk_cons_of_mem hmem, collect_cons_of_mem hmem, ih]
  | visit seen ct rest hmem ihabove ihrest =>
    intro pending
    obtain ⟨hseen, hmethods⟩ := reg.collect_cons_of_notMem name rest hmem
    have hpending : Order.depthFirst.schedule (reg.supertypes ct) (rest ++ pending) =
        reg.supertypes ct ++ (rest ++ pending) := rfl
    rw [List.cons_append, walk_cons_of_notMem hmem, hpending, List.flatMap_cons, ihabove, ihrest,
      hseen, hmethods]
    simp only [List.append_assoc]

theorem overloadsOf_eq_collect (name : String) (ct : ClassType) :
    reg.overloadsOf name ct = (reg.collect name [] [ct]).methods := by
  have h := reg.flatMap_walk_append name [] [ct] []
  rwa [walk_nil, List.flatMap_nil, List.append_nil, List.append_nil] at h

/-- The methods of a declared class are what the procedure collects from the class applied to its
own parameters, with nothing seen before. A class that is not declared has none. So it changes no
answer to look for the name beforehand, however deep the hierarchy is and whether or not it goes
round. -/
theorem overloads_eq_collect (reg : Registry) (id : ClassId) (name : String) :
    reg.overloads id name =
      match reg.class? id with
      | none => []
      | some decl => (reg.collect name [] [decl.ownType]).methods := by
  cases h : reg.class? id with
  | none => simp only [overloads, h]
  | some decl =>
    simp only [overloads_eq_overloadsOf h]
    exact overloadsOf_eq_collect name decl.ownType

end Registry

end MethodOperators
