import MethodOperators.Proofs.Applicability
import MethodOperators.Proofs.Enumeration

/-! A call has the result type of the first method that takes the arguments, however well others
would fit. -/

namespace MethodOperators

namespace Registry

/-- The receiver is a class type of a declared class, and `ty` is the result type of the first of
its methods of that name that takes the arguments, with the parameters of the class filled in. -/
def FirstMatch (reg : Registry) (receiver : Ty) (name : String) (args : List Ty) (ty : Ty) : Prop :=
  ∃ ct, receiver.asClass? = some ct ∧ reg.contains ct.id = true ∧
    ∃ (i : Nat) (sig : Signature Ty), (reg.overloads ct.id name)[i]? = some sig ∧
      reg.Takes args ((reg.bindingOf ct).applyToSignature sig) ∧
      (∀ (j : Nat) (earlier : Signature Ty), j < i → (reg.overloads ct.id name)[j]? = some earlier →
        ¬ reg.Takes args ((reg.bindingOf ct).applyToSignature earlier)) ∧
      ty = (reg.bindingOf ct).apply sig.result

variable {reg : Registry} {flags : Flags}

theorem eval_resolve_known {receiver : Ty} {name : String} (hname : name ≠ "") (args : List Ty) :
    (resolve (S := classTypes) (some receiver) name (args.map some)).eval reg.answer =
      (resolveKnown (S := classTypes) receiver name args).eval reg.answer := by
  have hempty : name.isEmpty = false := by simpa using hname
  simp only [resolve, allKnown_map_some, hempty, Bool.false_eq_true, if_false]

theorem answer_declaration_eq_none {receiver : Ty}
    (h : ¬ ∃ ct, receiver.asClass? = some ct ∧ reg.contains ct.id = true) :
    reg.answer (.declaration receiver) = none := by
  show (receiver.asClass?.map ClassType.id).filter reg.contains = none
  cases hclass : receiver.asClass? with
  | none => rfl
  | some ct =>
    have hdecl : ¬ reg.contains ct.id = true := fun hdecl => h ⟨ct, hclass, hdecl⟩
    simp [Option.filter, hdecl]

theorem firstMatch_iff_of_declared {receiver : Ty} {ct : ClassType}
    (hclass : receiver.asClass? = some ct) (hdecl : reg.contains ct.id = true) {name : String}
    {args : List Ty} {ty : Ty} :
    reg.FirstMatch receiver name args ty ↔
      ((reg.overloads ct.id name).find? fun sig =>
        reg.Takes args ((reg.bindingOf ct).applyToSignature sig)).map (fun sig =>
          (reg.bindingOf ct).apply sig.result) = some ty := by
  simp only [Option.map_eq_some_iff, List.find?_eq_some_iff_getElem, decide_eq_true_eq,
    Bool.not_eq_true', decide_eq_false_iff_not]
  constructor
  · rintro ⟨ct', hclass', -, i, sig, hsig, htakes, hbefore, rfl⟩
    obtain rfl := Option.some.inj (hclass.symm.trans hclass')
    obtain ⟨hi, hsig⟩ := List.getElem?_eq_some_iff.1 hsig
    have hbefore' (j : Nat) (hj : j < i) :=
      hbefore j _ hj (List.getElem?_eq_getElem (Nat.lt_trans hj hi))
    exact ⟨sig, ⟨htakes, i, hi, hsig, hbefore'⟩, rfl⟩
  · rintro ⟨sig, ⟨htakes, i, hi, hsig, hbefore⟩, rfl⟩
    refine ⟨ct, hclass, hdecl, i, sig, List.getElem?_eq_some_iff.2 ⟨hi, hsig⟩, htakes, ?_, rfl⟩
    intro j earlier hj hearlier
    obtain ⟨-, rfl⟩ := List.getElem?_eq_some_iff.1 hearlier
    exact hbefore j hj

/-- A call with a name and with arguments whose types are all known resolves to a type just when
this is the result type of the first match. If there is no match, it is unresolved. -/
theorem resolve_firstMatch (hflag : flags.isRaised reg.flag = false) {name : String}
    (hname : name ≠ "") (receiver : Ty) (args : List Ty) (asked : List (Question classTypes)) :
    (∀ ty, ((resolve (S := classTypes) (some receiver) name (args.map some)).run (reg.host flags)
        asked).outcome = .ok (.resolved ty) ↔ reg.FirstMatch receiver name args ty) ∧
      ((∀ ty, ¬ reg.FirstMatch receiver name args ty) →
        ((resolve (S := classTypes) (some receiver) name (args.map some)).run (reg.host flags)
          asked).outcome = .ok .unresolved) := by
  rw [outcome_run_host hflag, eval_resolve_known hname]
  by_cases h : ∃ ct, receiver.asClass? = some ct ∧ reg.contains ct.id = true
  · obtain ⟨ct, hclass, hdecl⟩ := h
    simp only [firstMatch_iff_of_declared hclass hdecl]
    rw [Ty.eq_toTy_of_asClass? hclass, eval_resolveKnown_of_declared hdecl]
    generalize Option.map _ _ = found
    cases found with
    | none => simp [Resolution.ofOption]
    | some ty => simp [Resolution.ofOption]
  · have hnone (ty : Ty) : ¬ reg.FirstMatch receiver name args ty := by
      rintro ⟨ct, hclass, hdecl, -⟩
      exact h ⟨ct, hclass, hdecl⟩
    rw [eval_resolveKnown_of_undeclared (answer_declaration_eq_none h)]
    simp [hnone]

/-- A class `Cell<T>` with four methods of one name. -/
def cellDecl : ClassDecl where
  id := ⟨1⟩
  name := "Cell"
  typeParams := [⟨0⟩]
  methods := [⟨"add", ⟨[.var ⟨0⟩, .var ⟨0⟩], .var ⟨0⟩⟩, ⟨false⟩⟩,
    ⟨"add", ⟨[.array (.var ⟨0⟩)], .var ⟨0⟩⟩, ⟨false⟩⟩,
    ⟨"add", ⟨[.var ⟨0⟩], .nominal ⟨1⟩ [.var ⟨0⟩]⟩, ⟨false⟩⟩,
    ⟨"add", ⟨[.primitive .int], .primitive .int⟩, ⟨false⟩⟩]

def cellRegistry : Registry :=
  { Registry.empty ⟨0⟩ with
    classes := ClassTable.empty.declare cellDecl
    typeParams := #[⟨"T", none⟩] }

/-- Nothing is above the class, so that it has just the methods that it declares. -/
theorem overloads_cellRegistry :
    cellRegistry.overloads ⟨1⟩ "add" = cellDecl.methods.map MethodDecl.signature := by
  have hdecl : cellRegistry.class? ⟨1⟩ = some cellDecl := by decide
  have hsupertypes : cellRegistry.supertypes cellDecl.ownType = [] := by decide
  have hancestors : cellRegistry.ancestors .depthFirst cellDecl.ownType = [cellDecl.ownType] := by
    rw [ancestors_eq_cons, hsupertypes, Order.schedule, List.append_nil, walk_nil]
  rw [overloads_eq_overloadsOf hdecl, overloadsOf, hancestors, List.flatMap_singleton,
    ownOverloads_ownType hdecl]
  decide

/-- On a `Cell<long>` an `int` goes to the third method, which takes a `long`. The first one has two
parameters and the second one takes an array, and the last one, which takes an `int`, comes too
late. -/
theorem resolve_firstMatch_cell :
    ((resolve (S := classTypes) (some (.nominal ⟨1⟩ [.primitive .long])) "add"
      [some (.primitive .int)]).run (cellRegistry.host Flags.empty.fresh.2) []).outcome =
        .ok (.resolved (.nominal ⟨1⟩ [.primitive .long])) := by
  have hmatch : cellRegistry.FirstMatch (.nominal ⟨1⟩ [.primitive .long]) "add" [.primitive .int]
      (.nominal ⟨1⟩ [.primitive .long]) := by
    refine ⟨⟨⟨1⟩, [.primitive .long]⟩, rfl, by decide, ?_⟩
    rw [overloads_cellRegistry]
    refine ⟨2, _, rfl, by decide, ?_, rfl⟩
    intro j earlier hj hearlier
    obtain rfl | rfl : j = 0 ∨ j = 1 := by omega
    · obtain rfl := Option.some.inj hearlier
      decide
    · obtain rfl := Option.some.inj hearlier
      decide
  exact ((resolve_firstMatch (by decide) (by decide) _ [.primitive .int] []).1 _).2 hmatch

end Registry

end MethodOperators
