import MethodOperators.Operator.Call
import MethodOperators.Registry.Host

/-! A chain of operators is read on after a step that failed. Nothing changes if reading stops
there: no later step resolves, and none asks a question. -/

namespace MethodOperators

variable {S : TypeSystem}

/-- A host whose answers do not depend on what was asked before. -/
def Host.Steady (host : Host S) : Prop :=
  ∀ (asked asked' : List (Question S)) (question : Question S),
    host asked question = host asked' question

theorem Inquiry.outcome_run_of_steady {α : Type} {host : Host S} (h : host.Steady)
    (m : Inquiry S α) (asked asked' : List (Question S)) :
    (m.run host asked).outcome = (m.run host asked').outcome := by
  show (Dialogue.run host asked (ExceptT.run m)).2 = (Dialogue.run host asked' (ExceptT.run m)).2
  generalize ExceptT.run m = m
  induction m generalizing asked asked' with
  | done a => rfl
  | ask question next ih =>
    simp only [Dialogue.run, h asked asked' question]
    exact ih _ _ _

namespace OperatorTable

variable (t : OperatorTable)

/-! ### Two ways to read a chain -/

/-- Reads a chain from the left, up to the first step that fails or has no token. -/
def readChain : (read : Option S.Ty) → (operands : List (Option S.Ty)) → (tokens : List String) →
    Inquiry S (Resolution S.Ty)
  | read, [], _ => return .ofOption read
  | _, _ :: _, [] => return .unresolved
  | read, operand :: operands, token :: tokens => do
    match ← t.resolveBinary read operand token with
    | .resolved ty => readChain (some ty) operands tokens
    | .unresolved => return .unresolved

/-- A chain of binary operators that is given up at the first failure. -/
def resolveUntilFailure (operands : List (Option S.Ty)) (tokens : List String) :
    Inquiry S (Resolution S.Ty) :=
  match operands with
  | [] => return .unresolved
  | [_] => return .unresolved
  | first :: rest => t.readChain first rest tokens

theorem resolveBinary_unknown (operand : Option S.Ty) (token : String) :
    t.resolveBinary none operand token = pure .unresolved := by
  unfold resolveBinary binaryCalls
  cases t.binaryName? token <;> rfl

theorem foldChain_unknown (operands : List (Option S.Ty)) (tokens : List String) :
    t.foldChain none operands tokens = pure none := by
  induction operands generalizing tokens with
  | nil => rfl
  | cons operand operands ih =>
    cases tokens with
    | nil => exact ih []
    | cons token tokens =>
      rw [foldChain_cons, resolveBinary_unknown, pure_bind]
      exact ih tokens

theorem readChain_unknown (operands : List (Option S.Ty)) (tokens : List String) :
    t.readChain none operands tokens = pure .unresolved := by
  cases operands with
  | nil => rfl
  | cons operand operands =>
    cases tokens with
    | nil => rfl
    | cons token tokens => rw [readChain, resolveBinary_unknown, pure_bind]

/-- After a failure nothing more is asked, so that it makes no difference to go on. -/
theorem readChain_cons (read operand : Option S.Ty) (operands : List (Option S.Ty)) (token : String)
    (tokens : List String) :
    t.readChain read (operand :: operands) (token :: tokens) =
      t.resolveBinary read operand token >>= fun found =>
        t.readChain found.toOption operands tokens := by
  rw [readChain]
  congr 1
  funext found
  cases found with
  | resolved ty => rfl
  | unresolved => exact (t.readChain_unknown operands tokens).symm

theorem foldChain_eq_readChain (read : Option S.Ty) (operands : List (Option S.Ty))
    (tokens : List String) :
    (t.foldChain read operands tokens >>= fun read => pure (.ofOption read)) =
      t.readChain read operands tokens := by
  induction operands generalizing read tokens with
  | nil => rfl
  | cons operand operands ih =>
    cases tokens with
    | nil =>
      show (t.foldChain none operands [] >>= _) = _
      rw [foldChain_unknown]
      rfl
    | cons token tokens =>
      rw [foldChain_cons, readChain_cons, bind_assoc]
      congr 1
      funext found
      exact ih found.toOption tokens

theorem resolveChain_eq (operands : List (Option S.Ty)) (tokens : List String) :
    t.resolveChain operands tokens = t.resolveUntilFailure operands tokens := by
  match operands with
  | [] => rfl
  | [_] => rfl
  | first :: second :: rest =>
    rw [resolveChain_cons_cons]
    exact t.foldChain_eq_readChain first (second :: rest) tokens

theorem resolveChain_cons {rest : List (Option S.Ty)} (hrest : rest ≠ []) (first : Option S.Ty)
    (tokens : List String) :
    t.resolveChain (first :: rest) tokens = t.readChain first rest tokens := by
  rw [resolveChain_eq]
  cases rest with
  | nil => exact absurd rfl hrest
  | cons second rest => rfl

/-! ### Parts of a chain -/

theorem readChain_take (read : Option S.Ty) (operands : List (Option S.Ty))
    (tokens : List String) :
    t.readChain read operands (tokens.take operands.length) = t.readChain read operands tokens := by
  induction operands generalizing read tokens with
  | nil => rfl
  | cons operand operands ih =>
    cases tokens with
    | nil => rfl
    | cons token tokens =>
      rw [List.length_cons, List.take_succ_cons, readChain_cons, readChain_cons]
      congr 1
      funext found
      exact ih found.toOption tokens

/-- A chain goes on with what its first part comes to. -/
theorem readChain_append (read : Option S.Ty) (front back : List (Option S.Ty))
    (tokens : List String) :
    t.readChain read (front ++ back) tokens =
      t.readChain read front tokens >>= fun found =>
        t.readChain found.toOption back (tokens.drop front.length) := by
  induction front generalizing read tokens with
  | nil =>
    show t.readChain read back tokens = t.readChain (Resolution.ofOption read).toOption back tokens
    rw [Resolution.toOption_ofOption]
  | cons operand front ih =>
    cases tokens with
    | nil => exact (t.readChain_unknown back []).symm
    | cons token tokens =>
      rw [List.cons_append, readChain_cons, readChain_cons, bind_assoc]
      congr 1
      funext found
      exact ih found.toOption tokens

/-! ### The steps of a chain -/

/-- The runs of the steps of a chain, each one on what the step before came to and after all that
was asked by then, as far as there are tokens and the host does not call them off. -/
def steps (host : Host S) : (asked : List (Question S)) → (read : Option S.Ty) →
    (operands : List (Option S.Ty)) → (tokens : List String) →
      List (Transcript S (Resolution S.Ty))
  | asked, read, operand :: operands, token :: tokens =>
    let step := (t.resolveBinary read operand token).run host asked
    match step.outcome with
    | .ok found => step :: steps host step.asked found.toOption operands tokens
    | .error _ => [step]
  | _, _, _, _ => []

theorem steps_ne_nil (host : Host S) (asked : List (Question S)) (read : Option S.Ty)
    {operands : List (Option S.Ty)} (hoperands : operands ≠ []) {tokens : List String}
    (hlength : operands.length ≤ tokens.length) : t.steps host asked read operands tokens ≠ [] := by
  cases operands with
  | nil => exact absurd rfl hoperands
  | cons operand operands =>
    cases tokens with
    | nil => simp at hlength
    | cons token tokens =>
      rw [steps]
      split
      · exact List.cons_ne_nil _ _
      · exact List.cons_ne_nil _ _

theorem run_readChain_iff (host : Host S) (asked asked' : List (Question S)) (read : Option S.Ty)
    {operands : List (Option S.Ty)} (hoperands : operands ≠ []) (tokens : List String)
    (ty : S.Ty) :
    (t.readChain read operands tokens).run host asked = ⟨asked', .ok (.resolved ty)⟩ ↔
      operands.length ≤ tokens.length ∧
        (∀ step ∈ t.steps host asked read operands tokens,
          ∃ u, step.outcome = .ok (.resolved u)) ∧
        (t.steps host asked read operands tokens).getLast? = some ⟨asked', .ok (.resolved ty)⟩ := by
  induction operands generalizing asked read tokens with
  | nil => exact absurd rfl hoperands
  | cons operand operands ih =>
    cases tokens with
    | nil => simp [readChain]
    | cons token tokens =>
      rw [readChain_cons, steps]
      rw [Inquiry.run_bind]
      obtain ⟨asked₁, outcome⟩ := (t.resolveBinary read operand token).run host asked
      cases outcome with
      | error e => simp
      | ok found =>
        cases found with
        | unresolved => simp [Resolution.toOption, readChain_unknown]
        | resolved u =>
          by_cases hlast : operands = []
          · subst hlast
            simp [readChain, steps, Resolution.toOption, Resolution.ofOption]
          · have hrest := ih asked₁ (some u) hlast tokens
            simp only [Resolution.toOption, hrest, List.length_cons, Nat.add_le_add_iff_right,
              List.forall_mem_cons]
            refine and_congr_right fun hlength => ?_
            have hsteps := t.steps_ne_nil host asked₁ (some u) hlast hlength
            rw [List.getLast?_cons_of_ne_nil hsteps]
            simp

/-! ### Runs of a chain -/

theorem resolveChain_take (operands : List (Option S.Ty)) (tokens : List String) :
    t.resolveChain operands (tokens.take (operands.length - 1)) =
      t.resolveChain operands tokens := by
  match operands with
  | [] => rfl
  | [_] => rfl
  | first :: second :: rest =>
    rw [t.resolveChain_cons (List.cons_ne_nil second rest),
      t.resolveChain_cons (List.cons_ne_nil second rest)]
    exact t.readChain_take first (second :: rest) tokens

/-- A chain whose first part comes to a type runs on from there as a chain that starts with an
operand of this type. -/
theorem run_resolveChain_split {host : Host S} {asked asked' : List (Question S)}
    {operands : List (Option S.Ty)} {tokens : List String} {k : Nat} {u : S.Ty}
    (hk : k + 1 < operands.length)
    (hfront : (t.resolveChain (operands.take (k + 1)) (tokens.take k)).run host asked =
      ⟨asked', .ok (.resolved u)⟩) :
    (t.resolveChain operands tokens).run host asked =
      (t.resolveChain (some u :: operands.drop (k + 1)) (tokens.drop k)).run host asked' := by
  cases operands with
  | nil => simp at hk
  | cons first rest =>
    rw [List.length_cons, Nat.add_lt_add_iff_right] at hk
    have hlength : (rest.take k).length = k := List.length_take_of_le (Nat.le_of_lt hk)
    have hrest : rest ≠ [] := List.ne_nil_of_length_pos (by omega)
    have hback : rest.drop k ≠ [] := by simpa using hk
    rw [List.take_succ_cons] at hfront
    by_cases hnil : rest.take k = []
    · -- A single operand is no chain, so that nothing was resolved.
      rw [hnil] at hfront
      cases congrArg Transcript.outcome hfront
    · have htake := t.readChain_take first (rest.take k) tokens
      have happend := t.readChain_append first (rest.take k) (rest.drop k) tokens
      rw [hlength] at htake
      rw [hlength, List.take_append_drop] at happend
      rw [t.resolveChain_cons hnil, htake] at hfront
      rw [t.resolveChain_cons hrest, List.drop_succ_cons, t.resolveChain_cons hback, happend]
      rw [Inquiry.run_bind, hfront]
      rfl

/-- Against every host, a chain asks what it asks when it is given up at the first step that fails
or has no token, and has the same outcome. So it resolves just when there is a token for each step
and all steps resolve, to the type that the last one comes to. Further tokens do not count. A chain
whose first part resolves goes on as the chain that starts with the type of this part. -/
theorem resolveChain_stops_at_failure (host : Host S) (asked : List (Question S))
    (tokens : List String) :
    (∀ operands : List (Option S.Ty), (t.resolveChain operands tokens).run host asked =
      (t.resolveUntilFailure operands tokens).run host asked) ∧
    (∀ (first : Option S.Ty) (rest : List (Option S.Ty)), rest ≠ [] → ∀ asked' ty,
      (t.resolveChain (first :: rest) tokens).run host asked = ⟨asked', .ok (.resolved ty)⟩ ↔
        rest.length ≤ tokens.length ∧
          (∀ step ∈ t.steps host asked first rest tokens,
            ∃ u, step.outcome = .ok (.resolved u)) ∧
          (t.steps host asked first rest tokens).getLast? = some ⟨asked', .ok (.resolved ty)⟩) ∧
    (∀ operands : List (Option S.Ty), (t.resolveChain operands tokens).run host asked =
      (t.resolveChain operands (tokens.take (operands.length - 1))).run host asked) ∧
    (∀ (operands : List (Option S.Ty)) (k : Nat) (asked' : List (Question S)) (u : S.Ty),
      k + 1 < operands.length →
      (t.resolveChain (operands.take (k + 1)) (tokens.take k)).run host asked =
        ⟨asked', .ok (.resolved u)⟩ →
      (t.resolveChain operands tokens).run host asked =
        (t.resolveChain (some u :: operands.drop (k + 1)) (tokens.drop k)).run host asked' ∧
      (host.Steady → ∀ asked'', ((t.resolveChain operands tokens).run host asked).outcome =
        ((t.resolveChain (some u :: operands.drop (k + 1)) (tokens.drop k)).run host
          asked'').outcome)) := by
  refine ⟨fun operands => ?_, fun first rest hrest asked' ty => ?_, fun operands => ?_,
    fun operands k asked' u hk hfront => ?_⟩
  · rw [resolveChain_eq]
  · rw [t.resolveChain_cons hrest]
    exact t.run_readChain_iff host asked asked' first hrest tokens ty
  · rw [resolveChain_take]
  · have hsplit := t.run_resolveChain_split hk hfront
    refine ⟨hsplit, fun hsteady asked'' => ?_⟩
    rw [hsplit]
    exact Inquiry.outcome_run_of_steady hsteady _ asked' asked''

/-- A host that knows one class. Under every name it has one method, from the class to itself. -/
def oneClassHost : Host classTypes
  | _, .declaration _ => .ok (some ⟨1⟩)
  | _, .methods _ _ => .ok [⟨[.simple ⟨1⟩], .simple ⟨1⟩⟩]
  | _, .binding _ => .ok .empty
  | _, .assignable target source => .ok (decide (target = source))

/-- Three operands of the class with a token too many. Both steps resolve, and after the first one
the chain goes on as a chain of two. -/
theorem resolveChain_stops_at_failure_three :
    (∀ step ∈ standard.steps oneClassHost [] (some (.simple ⟨1⟩))
        [some (.simple ⟨1⟩), some (.simple ⟨1⟩)] ["+", "-", "*"],
      ∃ u, step.outcome = .ok (.resolved u)) ∧
    oneClassHost.Steady ∧
    ((standard.resolveChain (S := classTypes) [some (.simple ⟨1⟩), some (.simple ⟨1⟩)]
      ["+"]).run oneClassHost []).outcome = .ok (.resolved (.simple ⟨1⟩)) ∧
    ((standard.resolveChain (S := classTypes)
        [some (.simple ⟨1⟩), some (.simple ⟨1⟩), some (.simple ⟨1⟩)] ["+", "-", "*"]).run
          oneClassHost []).outcome =
      ((standard.resolveChain (S := classTypes) [some (.simple ⟨1⟩), some (.simple ⟨1⟩)]
        ["-", "*"]).run oneClassHost []).outcome := by
  have hsteady : oneClassHost.Steady := fun _ _ question => by cases question <;> rfl
  obtain ⟨-, hsteps, -, hsplit⟩ :=
    resolveChain_stops_at_failure standard oneClassHost [] ["+", "-", "*"]
  have hall := (hsteps (some (.simple ⟨1⟩)) [some (.simple ⟨1⟩), some (.simple ⟨1⟩)]
    (List.cons_ne_nil _ _) _ (.simple ⟨1⟩)).1 rfl
  have hparts := hsplit [some (.simple ⟨1⟩), some (.simple ⟨1⟩), some (.simple ⟨1⟩)] 1 _
    (.simple ⟨1⟩) (by decide) rfl
  exact ⟨hall.2.1, hsteady, rfl, hparts.2 hsteady []⟩

end OperatorTable

end MethodOperators
