import MethodOperators.Inquiry
import MethodOperators.Registry.Subtyping

/-!
# Registries as hosts

A registry answers the questions of an inquiry about class types. Before each answer it looks at
the flag that it watches, and refuses to answer once the flag is raised.
-/

namespace MethodOperators

/-- The type system of registries. -/
abbrev classTypes : TypeSystem where
  Ty := Ty
  Decl := ClassId
  Subst := Substitution
  substitute := Substitution.apply

namespace Registry

/-- The answer to a question about class types. Types that are not classes have no declaration, and
fill no parameters. -/
def answer (reg : Registry) : (question : Question classTypes) → question.Answer
  | .declaration ty => (ty.asClass?.map ClassType.id).filter reg.contains
  | .methods id name => reg.overloads id name
  | .binding ty => (ty.asClass?.map reg.bindingOf).getD .empty
  | .assignable target source => reg.isAssignable target source

/-- The registry as a host that gives up when its flag is raised. -/
def host (reg : Registry) (flags : Flags) : Host classTypes := fun _ question => do
  flags.check reg.flag
  return reg.answer question

theorem host_of_not_raised {reg : Registry} {flags : Flags}
    (hflag : flags.isRaised reg.flag = false) (asked : List (Question classTypes))
    (question : Question classTypes) :
    reg.host flags asked question = .ok (reg.answer question) := by
  simp [host, Flags.check, hflag, bind, Except.bind, pure, Except.pure]

theorem host_of_raised {reg : Registry} {flags : Flags} (hflag : flags.isRaised reg.flag = true)
    (asked : List (Question classTypes)) (question : Question classTypes) :
    reg.host flags asked question = .error .cancelled := by
  simp [host, Flags.check, hflag, bind, Except.bind]

theorem answer_of_host_eq_ok {reg : Registry} {flags : Flags} {asked : List (Question classTypes)}
    {question : Question classTypes} {answer : question.Answer}
    (h : reg.host flags asked question = .ok answer) : answer = reg.answer question := by
  cases hflag : flags.isRaised reg.flag with
  | true =>
    rw [host_of_raised hflag] at h
    cases h
  | false =>
    rw [host_of_not_raised hflag] at h
    exact (Except.ok.inj h).symm

end Registry

end MethodOperators
