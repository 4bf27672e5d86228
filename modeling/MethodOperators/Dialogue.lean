import MethodOperators.Cancellation

/-!
# Dialogues

A dialogue is a computation that makes requests. Each request is granted or refused, and the
dialogue goes on with the reply, whichever it is: it may end with the refusal, make up a reply of its
own, or request again.
-/

namespace MethodOperators

/-- A computation that makes requests in `Q`. Where `q` is granted, the reply is in `A q`. -/
inductive Dialogue (Q : Type) (A : Q → Type) (α : Type) where
  /-- The result is known. -/
  | done (result : α)
  /-- A request has to be replied to first. -/
  | ask (request : Q) (next : Except Cancelled (A request) → Dialogue Q A α)

namespace Dialogue

variable {Q R : Type} {A : Q → Type} {B : R → Type} {α β γ : Type}

/-- Goes on with the result of a dialogue. -/
def bind : Dialogue Q A α → (α → Dialogue Q A β) → Dialogue Q A β
  | done a, f => f a
  | ask q next, f => ask q fun reply => (next reply).bind f

instance : Monad (Dialogue Q A) where
  pure := done
  bind := bind

theorem bind_done (m : Dialogue Q A α) : m.bind done = m := by
  induction m with
  | done a => rfl
  | ask q next ih =>
    simp only [bind]
    congr 1
    funext reply
    exact ih reply

theorem bind_assoc (m : Dialogue Q A α) (f : α → Dialogue Q A β) (g : β → Dialogue Q A γ) :
    (m.bind f).bind g = m.bind fun a => (f a).bind g := by
  induction m with
  | done a => rfl
  | ask q next ih =>
    simp only [bind]
    congr 1
    funext reply
    exact ih reply

instance : LawfulMonad (Dialogue Q A) :=
  LawfulMonad.mk' (Dialogue Q A) bind_done (fun _ _ => rfl) bind_assoc

/-- Runs a dialogue, after some requests have been made already, and gives all requests with the
result. A reply may depend on the requests before. -/
def run (reply : List Q → (q : Q) → Except Cancelled (A q)) (asked : List Q) :
    Dialogue Q A α → List Q × α
  | done a => (asked, a)
  | ask q next => (next (reply asked q)).run reply (asked ++ [q])

theorem run_bind (reply : List Q → (q : Q) → Except Cancelled (A q)) (asked : List Q)
    (m : Dialogue Q A α) (f : α → Dialogue Q A β) :
    (m >>= f).run reply asked =
      (f (m.run reply asked).2).run reply (m.run reply asked).1 := by
  induction m generalizing asked with
  | done a => rfl
  | ask q next ih => exact ih (reply asked q) (asked ++ [q])

/-- Replies to each request of a dialogue by a dialogue of its own. -/
def through (f : (q : Q) → Dialogue R B (Except Cancelled (A q))) :
    Dialogue Q A α → Dialogue R B α
  | done a => done a
  | ask q next => f q >>= fun reply => (next reply).through f

theorem through_bind (f : (q : Q) → Dialogue R B (Except Cancelled (A q))) (m : Dialogue Q A α)
    (g : α → Dialogue Q A β) : (m >>= g).through f = m.through f >>= fun a => (g a).through f := by
  induction m with
  | done a => rfl
  | ask q next ih =>
    show (f q >>= fun reply => (next reply >>= g).through f) = _
    rw [through, LawfulMonad.bind_assoc]
    congr 1
    funext reply
    exact ih reply

/-! ### Requests of one kind -/

/-- Every request of a dialogue has some property, provided that the requests before it have got
possible replies. -/
def AsksOnly (possible : (q : Q) → Except Cancelled (A q) → Prop) (P : Q → Prop) :
    Dialogue Q A α → Prop
  | done _ => True
  | ask q next => P q ∧ ∀ reply, possible q reply → (next reply).AsksOnly possible P

theorem AsksOnly.bind {possible : (q : Q) → Except Cancelled (A q) → Prop} {P : Q → Prop}
    {m : Dialogue Q A (Except Cancelled α)} {f : α → ExceptT Cancelled (Dialogue Q A) β}
    (h : m.AsksOnly possible P) (hf : ∀ a, AsksOnly possible P (f a).run) :
    (m >>= ExceptT.bindCont f).AsksOnly possible P := by
  induction m with
  | done outcome =>
    cases outcome with
    | error e => exact trivial
    | ok a => exact hf a
  | ask q next ih => exact ⟨h.1, fun reply hreply => ih reply (h.2 reply hreply)⟩

end Dialogue

end MethodOperators
