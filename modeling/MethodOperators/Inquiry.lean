import MethodOperators.Dialogue
import MethodOperators.Type.Signature

/-!
# Inquiries

Resolving an operator needs to know four things about types, and only a type system can tell: what
declares a type, which methods a declaration has, how a type fills the parameters of its
declaration, and which type may be used for which. An inquiry is a dialogue that asks such questions
and may fail. It makes no assumption on what types are, nor on who answers.

A host answers the questions of an inquiry in turn, or refuses to answer. It may remember what it was
asked before. Running an inquiry gives its outcome together with all questions that were asked. The
host has no way to end an inquiry: that one ends when it is refused an answer is up to the inquiry.
-/

namespace MethodOperators

/-- What types, declarations and substitutions are. -/
structure TypeSystem where
  Ty : Type
  /-- What declares the methods of a type. -/
  Decl : Type
  /-- How a type fills the parameters of its declaration. -/
  Subst : Type
  /-- Fills the parameters that occur in a type. -/
  substitute : Subst → Ty → Ty

/-- A question about types. -/
inductive Question (S : TypeSystem) where
  /-- What declares a type? -/
  | declaration (ty : S.Ty)
  /-- Which methods of a given name does a declaration have, inherited ones included? -/
  | methods (decl : S.Decl) (name : String)
  /-- How does a type fill the parameters of its declaration? -/
  | binding (ty : S.Ty)
  /-- May a value of type `source` be used where `target` is expected? -/
  | assignable (target source : S.Ty)

/-- What answers a question. Types without a declaration are possible, and methods are told in an
order that counts. -/
abbrev Question.Answer {S : TypeSystem} : Question S → Type
  | declaration _ => Option S.Decl
  | methods _ _ => List (Signature S.Ty)
  | binding _ => S.Subst
  | assignable _ _ => Bool

/-- A computation that asks questions. A step of it ends the computation if it comes to a failure,
and the next step goes on with its result otherwise. -/
abbrev Inquiry (S : TypeSystem) : Type → Type :=
  ExceptT Cancelled (Dialogue (Question S) Question.Answer)

namespace Inquiry

variable {S : TypeSystem}

/-- Asks a question. The reply is the outcome, be it an answer or a refusal. -/
def ask (question : Question S) : Inquiry S question.Answer :=
  ExceptT.mk (.ask question .done)

/-- Asks what declares a type. -/
def declaration (ty : S.Ty) : Inquiry S (Option S.Decl) := ask (.declaration ty)

/-- Asks which methods of a given name a declaration has. -/
def methods (decl : S.Decl) (name : String) : Inquiry S (List (Signature S.Ty)) :=
  ask (.methods decl name)

/-- Asks how a type fills the parameters of its declaration. -/
def binding (ty : S.Ty) : Inquiry S S.Subst := ask (.binding ty)

/-- Asks whether a value of type `source` may be used where `target` is expected. -/
def assignable (target source : S.Ty) : Inquiry S Bool := ask (.assignable target source)

end Inquiry

/-- Answers questions or refuses to. The answer to a question may depend on the questions that were
asked before. -/
def Host (S : TypeSystem) : Type :=
  (asked : List (Question S)) → (question : Question S) → Except Cancelled question.Answer

/-- A host that answers the first `n` questions as `host` does and refuses to answer any later
one. -/
def Host.limit {S : TypeSystem} (host : Host S) (n : Nat) : Host S := fun asked question =>
  if asked.length < n then host asked question else .error .cancelled

/-- What happened when an inquiry was run. -/
structure Transcript (S : TypeSystem) (α : Type) where
  /-- All questions that were asked, in order, those that were not answered included. -/
  asked : List (Question S)
  /-- The result, unless the inquiry failed. -/
  outcome : Except Cancelled α

namespace Inquiry

variable {S : TypeSystem} {α β : Type}

/-- Runs an inquiry, after some questions have been asked already. -/
def run (host : Host S) (asked : List (Question S)) (m : Inquiry S α) : Transcript S α :=
  let (asked, outcome) := Dialogue.run host asked (ExceptT.run m)
  ⟨asked, outcome⟩

@[simp]
theorem run_pure (host : Host S) (asked : List (Question S)) (a : α) :
    (pure a : Inquiry S α).run host asked = ⟨asked, .ok a⟩ := rfl

@[simp]
theorem run_ask (host : Host S) (asked : List (Question S)) (question : Question S) :
    (ask question).run host asked = ⟨asked ++ [question], host asked question⟩ := rfl

/-- A sequence of two inquiries runs the second one after all that the first one asked, unless the
first one failed. -/
theorem run_bind (host : Host S) (m : Inquiry S α) (f : α → Inquiry S β)
    (asked : List (Question S)) :
    (m >>= f).run host asked =
      match (m.run host asked).outcome with
      | .ok a => (f a).run host (m.run host asked).asked
      | .error e => ⟨(m.run host asked).asked, .error e⟩ := by
  have hrun := Dialogue.run_bind host asked (ExceptT.run m) (ExceptT.bindCont f)
  show (let (asked, outcome) := (ExceptT.run m >>= ExceptT.bindCont f).run host asked
    (⟨asked, outcome⟩ : Transcript S β)) = _
  rw [hrun]
  simp only [run]
  rcases (ExceptT.run m).run host asked with ⟨asked', e | a⟩ <;> rfl

theorem run_bind_of_ok {host : Host S} {m : Inquiry S α} {asked asked' : List (Question S)} {a : α}
    (h : m.run host asked = ⟨asked', .ok a⟩) (f : α → Inquiry S β) :
    (m >>= f).run host asked = (f a).run host asked' := by
  rw [run_bind, h]

theorem run_map (host : Host S) (asked : List (Question S)) (f : α → β) (m : Inquiry S α) :
    (f <$> m).run host asked = ⟨(m.run host asked).asked, (m.run host asked).outcome.map f⟩ := by
  rw [map_eq_pure_bind, run_bind]
  cases (m.run host asked).outcome <;> rfl

end Inquiry

end MethodOperators
