import MethodOperators.MethodCall
import MethodOperators.Registry.Host
import Mathlib.Data.List.Forall2

/-! Calls against a registry. It gives the same answer to a question each time, as long as its flag
is not raised, so that what an inquiry comes to is a function of these answers. -/

namespace MethodOperators

variable {S : TypeSystem} {α β : Type}

/-- What a dialogue comes to when each request has one reply. -/
def Dialogue.eval {Q : Type} {A : Q → Type} (reply : (q : Q) → Except Cancelled (A q)) :
    Dialogue Q A α → α
  | done a => a
  | ask q next => (next (reply q)).eval reply

theorem Dialogue.eval_bind {Q : Type} {A : Q → Type} (reply : (q : Q) → Except Cancelled (A q))
    (m : Dialogue Q A α) (f : α → Dialogue Q A β) :
    (m >>= f).eval reply = (f (m.eval reply)).eval reply := by
  induction m with
  | done a => rfl
  | ask q next ih => exact ih (reply q)

namespace Inquiry

/-- What an inquiry comes to when each question has one answer. -/
def eval (answer : (question : Question S) → question.Answer) (m : Inquiry S α) :
    Except Cancelled α :=
  (ExceptT.run m).eval fun question => .ok (answer question)

variable {answer : (question : Question S) → question.Answer}

theorem eval_pure (a : α) : (pure a : Inquiry S α).eval answer = .ok a := rfl

theorem eval_bind (m : Inquiry S α) (f : α → Inquiry S β) :
    (m >>= f).eval answer = m.eval answer >>= fun a => (f a).eval answer := by
  refine (Dialogue.eval_bind _ (ExceptT.run m) (ExceptT.bindCont f)).trans ?_
  show (ExceptT.bindCont f (m.eval answer)).eval _ = _
  cases m.eval answer <;> rfl

theorem eval_bind_of_eq_ok {m : Inquiry S α} {a : α} (h : m.eval answer = .ok a)
    (f : α → Inquiry S β) : (m >>= f).eval answer = (f a).eval answer := by
  rw [eval_bind, h]
  rfl

theorem run_eq_eval {host : Host S}
    (hhost : ∀ asked question, host asked question = .ok (answer question)) (m : Inquiry S α)
    (asked : List (Question S)) : (m.run host asked).outcome = m.eval answer := by
  show (Dialogue.run host asked (ExceptT.run m)).2 = _
  rw [eval]
  generalize ExceptT.run m = m
  induction m generalizing asked with
  | done a => rfl
  | ask question next ih =>
    simp only [Dialogue.run, Dialogue.eval, hhost]
    exact ih (.ok (answer question)) _

end Inquiry

namespace Registry

variable {reg : Registry} {flags : Flags}

theorem outcome_run_host (hflag : flags.isRaised reg.flag = false) (m : Inquiry classTypes α)
    (asked : List (Question classTypes)) :
    (m.run (reg.host flags) asked).outcome = m.eval reg.answer :=
  m.run_eq_eval (host_of_not_raised hflag) asked

/-! ### The first method that takes the arguments -/

/-- A method with the given parameters takes arguments of types `args`: there are as many as
parameters, and each may be used for the parameter at its position. -/
def Takes (reg : Registry) (args : List Ty) (sig : Signature Ty) : Prop :=
  List.Forall₂ (fun param arg => reg.isAssignable param arg = true) sig.params args

instance (reg : Registry) (args : List Ty) (sig : Signature Ty) : Decidable (reg.Takes args sig) :=
  inferInstanceAs (Decidable (List.Forall₂ _ _ _))

theorem eval_accepts {s : Substitution} {params args : List Ty}
    (hlength : params.length = args.length) :
    (accepts (S := classTypes) s params args).eval reg.answer =
      .ok (decide (List.Forall₂ (fun param arg => reg.isAssignable param arg = true)
        (params.map s.apply) args)) := by
  induction params generalizing args with
  | nil =>
    obtain rfl : args = [] := List.eq_nil_of_length_eq_zero hlength.symm
    exact congrArg Except.ok (decide_eq_true .nil).symm
  | cons param params ih =>
    cases args with
    | nil => cases hlength
    | cons arg args =>
      have hask : (Inquiry.assignable (S := classTypes) (s.apply param) arg).eval reg.answer =
          .ok (reg.isAssignable (s.apply param) arg) := rfl
      rw [accepts, Inquiry.eval_bind_of_eq_ok hask]
      cases hassign : reg.isAssignable (s.apply param) arg with
      | true => simp [ih (Nat.succ.inj hlength), hassign]
      | false => simp [Inquiry.eval_pure, hassign]

/-- The methods are tried in order, and the first one that takes the arguments is the one. -/
theorem eval_firstApplicable (reg : Registry) (s : Substitution) (args : List Ty)
    (sigs : List (Signature Ty)) :
    (firstApplicable (S := classTypes) s args sigs).eval reg.answer =
      .ok (.ofOption ((sigs.find? fun sig => reg.Takes args (s.applyToSignature sig)).map fun sig =>
        s.apply sig.result)) := by
  induction sigs with
  | nil => rfl
  | cons sig sigs ih =>
    rw [firstApplicable]
    by_cases harity : sig.arity = args.length
    · have haccepts : (accepts (S := classTypes) s sig.params args).eval reg.answer =
          .ok (decide (reg.Takes args (s.applyToSignature sig))) := eval_accepts harity
      rw [if_pos harity, Inquiry.eval_bind_of_eq_ok haccepts]
      by_cases htakes : reg.Takes args (s.applyToSignature sig)
      · rw [decide_eq_true htakes, List.find?_cons_of_pos (by simp [htakes])]
        rfl
      · rw [decide_eq_false htakes, List.find?_cons_of_neg (by simp [htakes])]
        exact ih
    · have htakes : ¬ reg.Takes args (s.applyToSignature sig) := by
        intro h
        have hlength := List.Forall₂.length_eq h
        rw [Substitution.applyToSignature, Signature.map, List.length_map] at hlength
        exact harity hlength
      rw [if_neg harity, List.find?_cons_of_neg (by simpa using htakes)]
      exact ih

theorem eval_resolveKnown_of_undeclared {receiver : Ty} {name : String} {args : List Ty}
    (h : reg.answer (.declaration receiver) = none) :
    (resolveKnown (S := classTypes) receiver name args).eval reg.answer = .ok .unresolved := by
  have hask : (Inquiry.declaration (S := classTypes) receiver).eval reg.answer = .ok none :=
    congrArg Except.ok h
  rw [resolveKnown, Inquiry.eval_bind_of_eq_ok hask]
  rfl

theorem eval_resolveKnown_of_declared {ct : ClassType} {name : String} {args : List Ty}
    (h : reg.contains ct.id = true) :
    (resolveKnown (S := classTypes) ct.toTy name args).eval reg.answer =
      .ok (.ofOption (((reg.overloads ct.id name).find? fun sig =>
        reg.Takes args ((reg.bindingOf ct).applyToSignature sig)).map fun sig =>
          (reg.bindingOf ct).apply sig.result)) := by
  have hdecl : reg.answer (.declaration ct.toTy) = some ct.id := by
    show (some ct.id).filter reg.contains = some ct.id
    simp [Option.filter, h]
  have hask : (Inquiry.declaration (S := classTypes) ct.toTy).eval reg.answer = .ok (some ct.id) :=
    congrArg Except.ok hdecl
  have hsigs : (Inquiry.methods (S := classTypes) ct.id name).eval reg.answer =
      .ok (reg.overloads ct.id name) := rfl
  have hsubst : (Inquiry.binding (S := classTypes) ct.toTy).eval reg.answer =
      .ok (reg.bindingOf ct) := rfl
  rw [resolveKnown, Inquiry.eval_bind_of_eq_ok hask]
  simp only [Inquiry.eval_bind_of_eq_ok hsigs]
  cases reg.overloads ct.id name with
  | nil => rfl
  | cons sig sigs =>
    simp only [List.isEmpty_cons, Bool.false_eq_true, if_false, Inquiry.eval_bind_of_eq_ok hsubst]
    exact eval_firstApplicable reg (reg.bindingOf ct) args (sig :: sigs)

/-- A call of which all types are known resolves when the class of the receiver is declared and one
of its methods of that name takes the arguments. -/
theorem eval_resolveKnown_iff {ct : ClassType} {name : String} {args : List Ty} :
    (∃ ty, (resolveKnown (S := classTypes) ct.toTy name args).eval reg.answer =
        .ok (.resolved ty)) ↔
      reg.contains ct.id = true ∧ ∃ sig ∈ reg.overloads ct.id name,
        reg.Takes args ((reg.bindingOf ct).applyToSignature sig) := by
  cases hdecl : reg.contains ct.id with
  | false =>
    have hnone : reg.answer (.declaration ct.toTy) = none := by
      show (some ct.id).filter reg.contains = none
      simp [Option.filter, hdecl]
    simp [eval_resolveKnown_of_undeclared hnone]
  | true =>
    rw [eval_resolveKnown_of_declared hdecl]
    cases hfind : (reg.overloads ct.id name).find? fun sig =>
        reg.Takes args ((reg.bindingOf ct).applyToSignature sig) with
    | none => simpa [Resolution.ofOption] using hfind
    | some sig =>
      have htakes : reg.Takes args ((reg.bindingOf ct).applyToSignature sig) := by
        simpa using List.find?_some hfind
      exact iff_of_true ⟨_, rfl⟩ ⟨rfl, sig, List.mem_of_find?_eq_some hfind, htakes⟩

/-- A call of which all types are known asks a question, so that it fails once the flag is
raised. -/
theorem outcome_resolveKnown_of_raised (hflag : flags.isRaised reg.flag = true) (receiver : Ty)
    (name : String) (args : List Ty) (asked : List (Question classTypes)) :
    ((resolveKnown (S := classTypes) receiver name args).run (reg.host flags) asked).outcome =
      .error .cancelled := by
  rw [resolveKnown, Inquiry.run_bind, Inquiry.declaration, Inquiry.run_ask, host_of_raised hflag]

/-- A call on a class type resolves when the flag is not raised, the name is not empty, all arguments
have a type, the class is declared, and one of its methods of that name takes the arguments. -/
theorem outcome_resolve_iff {ct : ClassType} {name : String} {args : List (Option Ty)}
    {asked : List (Question classTypes)} :
    (∃ ty, ((resolve (S := classTypes) (some ct.toTy) name args).run (reg.host flags)
        asked).outcome = .ok (.resolved ty)) ↔
      flags.isRaised reg.flag = false ∧ ∃ known, allKnown args = some known ∧
        name.isEmpty = false ∧ reg.contains ct.id = true ∧ ∃ sig ∈ reg.overloads ct.id name,
          reg.Takes known ((reg.bindingOf ct).applyToSignature sig) := by
  cases hargs : allKnown args with
  | none => simp [resolve, hargs]
  | some known =>
    simp only [resolve, hargs, Option.some.injEq, exists_eq_left']
    cases hname : name.isEmpty with
    | true => simp
    | false =>
      simp only [Bool.false_eq_true, if_false, true_and]
      cases hflag : flags.isRaised reg.flag with
      | true => simp [outcome_resolveKnown_of_raised hflag]
      | false =>
        simp only [outcome_run_host hflag, true_and]
        exact eval_resolveKnown_iff

end Registry

end MethodOperators
