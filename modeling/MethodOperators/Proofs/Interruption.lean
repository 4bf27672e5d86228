import MethodOperators.Operator.Call
import MethodOperators.Proofs.FirstMatch

/-! A host may refuse to answer any question of an inquiry, and all questions after it. An inquiry
is told of a refusal as it is told of an answer, and could go on from there. That the operations do
not is shown for each of them along its recursion. -/

namespace MethodOperators

variable {S : TypeSystem} {Q R : Type} {A : Q → Type} {B : R → Type} {α β : Type}

/-! ### Passing on refusals -/

namespace Dialogue

/-- A dialogue that ends with the refusal where a request is refused, and with a result otherwise. -/
def Forwards : Dialogue Q A (Except Cancelled α) → Prop
  | done outcome => ∃ a, outcome = .ok a
  | ask _ next => (∀ e, next (.error e) = done (.error e)) ∧ ∀ a, (next (.ok a)).Forwards

theorem Forwards.bind {m : Dialogue Q A (Except Cancelled α)}
    {next : Except Cancelled α → Dialogue Q A (Except Cancelled β)} (h : m.Forwards)
    (herror : ∀ e, next (.error e) = done (.error e)) (hok : ∀ a, (next (.ok a)).Forwards) :
    (m >>= next).Forwards := by
  induction m with
  | done outcome =>
    obtain ⟨a, rfl⟩ := h
    exact hok a
  | ask q rest ih =>
    refine ⟨fun e => ?_, fun a => ih (.ok a) (h.2 a)⟩
    show (rest (.error e) >>= next) = _
    rw [h.1 e]
    exact herror e

theorem Forwards.through {f : (q : Q) → Dialogue R B (Except Cancelled (A q))}
    {m : Dialogue Q A (Except Cancelled α)} (h : m.Forwards) (hf : ∀ q, (f q).Forwards) :
    (m.through f).Forwards := by
  induction m with
  | done outcome => exact h
  | ask q next ih =>
    -- Where a request of `f q` is refused, the refusal is the reply to `q`, and `m` passes it on.
    refine (hf q).bind (fun e => ?_) fun a => ih (.ok a) (h.2 a)
    rw [h.1 e]
    rfl

end Dialogue

/-- A computation that fails when one of its requests is refused, at once and only then. -/
def Forwards (m : ExceptT Cancelled (Dialogue Q A) α) : Prop := (ExceptT.run m).Forwards

theorem forwards_pure (a : α) : Forwards (pure a : ExceptT Cancelled (Dialogue Q A) α) := ⟨a, rfl⟩

theorem forwards_ask (question : Question S) : Forwards (Inquiry.ask question) :=
  ⟨fun _ => rfl, fun answer => ⟨answer, rfl⟩⟩

theorem forwards_call (receiver : Option S.Ty) (name : String) (args : List (Option S.Ty)) :
    Forwards (Calls.call receiver name args) :=
  ⟨fun _ => rfl, fun found => ⟨found, rfl⟩⟩

theorem Forwards.bind {m : ExceptT Cancelled (Dialogue Q A) α}
    {f : α → ExceptT Cancelled (Dialogue Q A) β} (h : Forwards m) (hf : ∀ a, Forwards (f a)) :
    Forwards (m >>= f) :=
  Dialogue.Forwards.bind h (fun _ => rfl) hf

/-! ### Method calls -/

theorem forwards_accepts (subst : S.Subst) (params args : List S.Ty) :
    Forwards (accepts subst params args) := by
  fun_induction accepts subst params args with
  | case1 param params arg args ih =>
    refine (forwards_ask _).bind fun assignable => ?_
    split
    · exact ih
    · exact forwards_pure false
  | case2 => exact forwards_pure true

theorem forwards_firstApplicable (subst : S.Subst) (args : List S.Ty)
    (sigs : List (Signature S.Ty)) : Forwards (firstApplicable subst args sigs) := by
  induction sigs with
  | nil => exact forwards_pure _
  | cons sig sigs ih =>
    rw [firstApplicable]
    split
    · refine (forwards_accepts subst sig.params args).bind fun accepted => ?_
      split
      · exact forwards_pure _
      · exact ih
    · exact ih

theorem forwards_resolveKnown (receiver : S.Ty) (name : String) (args : List S.Ty) :
    Forwards (resolveKnown receiver name args) := by
  refine (forwards_ask _).bind fun decl? => ?_
  cases decl? with
  | none => exact forwards_pure _
  | some decl =>
    refine (forwards_ask _).bind fun sigs => ?_
    split
    · exact forwards_pure _
    · exact (forwards_ask _).bind fun subst => forwards_firstApplicable subst args sigs

theorem forwards_resolve (receiver : Option S.Ty) (name : String) (args : List (Option S.Ty)) :
    Forwards (resolve receiver name args) := by
  unfold resolve
  split
  · split
    · exact forwards_pure _
    · exact forwards_resolveKnown _ name _
  · exact forwards_pure _

theorem forwards_resolveExprs (receiver : Option (Expr S.Ty)) (name : String)
    (args : List (Option (Expr S.Ty))) : Forwards (resolveExprs receiver name args) := by
  unfold resolveExprs
  split
  · exact forwards_resolve _ name _
  · exact forwards_pure _

theorem Forwards.toInquiry {calls : Calls S α} (h : Forwards calls) : Forwards calls.toInquiry :=
  Dialogue.Forwards.through h fun c => forwards_resolve c.receiver c.name c.args

/-! ### Operators -/

namespace OperatorTable

variable (t : OperatorTable)

theorem forwards_namedCall (name? : Option String) (receiver : Option S.Ty)
    (args : List (Option S.Ty)) : Forwards (namedCall name? receiver args) := by
  cases name? with
  | none => exact forwards_pure _
  | some name => exact forwards_call receiver name args

theorem forwards_foldCalls (read : Option S.Ty) (operands : List (Option S.Ty))
    (tokens : List String) : Forwards (t.foldCalls read operands tokens) := by
  fun_induction foldCalls t read operands tokens with
  | case1 tokens read => exact forwards_pure read
  | case2 read operand operands ih => exact ih
  | case3 read operand operands token tokens ih =>
    exact (forwards_namedCall _ read [operand]).bind ih

theorem forwards_chainCalls (operands : List (Option S.Ty)) (tokens : List String) :
    Forwards (t.chainCalls operands tokens) := by
  match operands with
  | [] => exact forwards_pure _
  | [_] => exact forwards_pure _
  | first :: second :: rest =>
    exact (t.forwards_foldCalls first (second :: rest) tokens).bind fun _ => forwards_pure _

theorem forwards_candidateCalls (receiver : S.Ty) (args : List S.Ty) (names : List String) :
    Forwards (candidateCalls receiver args names) := by
  induction names with
  | nil => exact forwards_pure _
  | cons name names ih =>
    refine (forwards_call _ name _).bind fun found => ?_
    cases found with
    | resolved ty => exact forwards_pure _
    | unresolved => exact ih

theorem forwards_readCalls (container index : Option (Expr S.Ty)) :
    Forwards (t.readCalls container index) := by
  unfold readCalls
  split
  · exact forwards_candidateCalls _ _ t.indexGet
  · exact forwards_pure _

theorem forwards_writeCalls (container index value : Option (Expr S.Ty)) :
    Forwards (t.writeCalls container index value) := by
  unfold writeCalls
  split
  · exact forwards_candidateCalls _ _ t.indexSet
  · exact forwards_pure _

theorem forwards_conversionCalls (target : Option S.Ty) (source : Option (Expr S.Ty)) :
    Forwards (t.conversionCalls target source) := by
  unfold conversionCalls
  split
  · exact (forwards_call target t.valueOf _).bind fun _ => forwards_pure _
  · exact forwards_pure _

end OperatorTable

/-! ### Runs under a limit -/

/-- A host that answers every question, whatever was asked before. -/
def Host.Answers (host : Host S) : Prop :=
  ∀ (asked : List (Question S)) (question : Question S),
    ∃ answer, host asked question = .ok answer

namespace Dialogue

theorem asked_isPrefix_run (host : Host S) (m : Dialogue (Question S) Question.Answer α)
    (asked : List (Question S)) : asked <+: (m.run host asked).1 := by
  induction m generalizing asked with
  | done a => exact List.prefix_rfl
  | ask question next ih =>
    exact (List.prefix_append asked [question]).trans (ih (host asked question) _)

variable {m : Dialogue (Question S) Question.Answer (Except Cancelled α)}

/-- A host that never gives up lets a dialogue come to its result. -/
theorem Forwards.run_ok_of_answers (hm : m.Forwards) {host : Host S} (hhost : host.Answers)
    (asked : List (Question S)) :
    ∃ (calls : List (Question S)) (result : α), m.run host asked = (calls, .ok result) := by
  induction m generalizing asked with
  | done outcome =>
    obtain ⟨result, rfl⟩ := hm
    exact ⟨asked, result, rfl⟩
  | ask question next ih =>
    obtain ⟨answer, hanswer⟩ := hhost asked question
    obtain ⟨calls, result, hrun⟩ := ih (.ok answer) (hm.2 answer) (asked ++ [question])
    exact ⟨calls, result, by simp only [run, hanswer, hrun]⟩

/-- A limit on the number of questions cuts a run short right after the first question beyond it,
and does not touch a run that stays within it. -/
theorem Forwards.run_limit (hm : m.Forwards) {host : Host S} {asked calls : List (Question S)}
    {result : α} (hrun : m.run host asked = (calls, .ok result)) {n : Nat}
    (hn : asked.length ≤ n) :
    m.run (host.limit n) asked =
      if calls.length ≤ n then (calls, .ok result) else (calls.take (n + 1), .error .cancelled) := by
  induction m generalizing asked with
  | done outcome =>
    obtain ⟨rfl, rfl⟩ := Prod.mk.inj hrun
    rw [if_pos hn]
    rfl
  | ask question next ih =>
    cases hanswer : host asked question with
    | error e =>
      simp only [run, hanswer, hm.1 e] at hrun
      cases congrArg Prod.snd hrun
    | ok answer =>
      simp only [run, hanswer] at hrun
      by_cases hlt : asked.length < n
      · have hlimit : host.limit n asked question = .ok answer := by
          rw [Host.limit, if_pos hlt, hanswer]
        have hroom : (asked ++ [question]).length ≤ n := by
          rw [List.length_append, List.length_singleton]
          omega
        simp only [run, hlimit]
        exact ih (.ok answer) (hm.2 answer) hrun hroom
      · -- This is the question that is refused, and it stands right after the first `n`.
        have hlimit : host.limit n asked question = .error .cancelled := by
          rw [Host.limit, if_neg hlt]
        obtain ⟨later, hlater⟩ : asked ++ [question] <+: calls := by
          have hprefix := asked_isPrefix_run host (next (.ok answer)) (asked ++ [question])
          rwa [hrun] at hprefix
        have hlength : (asked ++ [question]).length = n + 1 := by
          rw [List.length_append, List.length_singleton]
          omega
        have hmore : ¬ calls.length ≤ n := by
          rw [← hlater, List.length_append]
          omega
        have htake : calls.take (n + 1) = asked ++ [question] := by
          rw [← hlater, ← hlength, List.take_left]
        simp only [if_neg hmore, htake, run, hlimit, hm.1]

end Dialogue

/-- Under a host that answers `n` questions and no more, an inquiry that asks `calls` when it is let
finish has the same result and asks the same if these are `n` at most. Otherwise it fails, and its
last question is the first one that was not answered. -/
def Inquiry.StopsWhenCalledOff (host : Host S) (m : Inquiry S α) : Prop :=
  ∃ (calls : List (Question S)) (result : α), m.run host [] = ⟨calls, .ok result⟩ ∧
    ∀ n, m.run (host.limit n) [] =
      if calls.length ≤ n then ⟨calls, .ok result⟩
      else ⟨calls.take (n + 1), .error .cancelled⟩

theorem Forwards.stopsWhenCalledOff {m : Inquiry S α} (hm : Forwards m) {host : Host S}
    (hhost : host.Answers) : m.StopsWhenCalledOff host := by
  obtain ⟨calls, result, hrun⟩ := Dialogue.Forwards.run_ok_of_answers hm hhost []
  refine ⟨calls, result, by rw [Inquiry.run, hrun], fun n => ?_⟩
  rw [Inquiry.run, Dialogue.Forwards.run_limit hm hrun (Nat.zero_le n)]
  by_cases hcalls : calls.length ≤ n <;> simp only [hcalls, if_true, if_false]

/-- An inquiry that has a result whatever it is told does not stop when it should. -/
example (host : Host S) (question : Question S) :
    let m : Inquiry S Unit := ExceptT.mk (.ask question fun _ => .done (.ok ()))
    ¬ m.StopsWhenCalledOff host := by
  rintro m ⟨calls, result, hrun, hlimit⟩
  obtain rfl : [question] = calls := congrArg Transcript.asked hrun
  cases congrArg Transcript.outcome (hlimit 0)

theorem Registry.host_answers {reg : Registry} {flags : Flags}
    (hflag : flags.isRaised reg.flag = false) : (reg.host flags).Answers := by
  intro asked question
  exact ⟨reg.answer question, Registry.host_of_not_raised hflag asked question⟩

/-- Against a registry whose flag is not raised, every operation that resolves calls or operators
stops with the failure at the question at which it is called off, if it comes that far. -/
theorem operators_stop_when_calledOff (reg : Registry) (flags : Flags)
    (hflag : flags.isRaised reg.flag = false) (t : OperatorTable) :
    (∀ (receiver : Option Ty) (name : String) (args : List (Option Ty)),
      (resolve (S := classTypes) receiver name args).StopsWhenCalledOff (reg.host flags)) ∧
    (∀ (receiver : Option (Expr Ty)) (name : String) (args : List (Option (Expr Ty))),
      (resolveExprs (S := classTypes) receiver name args).StopsWhenCalledOff (reg.host flags)) ∧
    (∀ (lhs rhs : Option Ty) (token : String),
      (t.resolveBinary (S := classTypes) lhs rhs token).StopsWhenCalledOff (reg.host flags)) ∧
    (∀ (operands : List (Option Ty)) (tokens : List String),
      (t.resolveChain (S := classTypes) operands tokens).StopsWhenCalledOff (reg.host flags)) ∧
    (∀ (lhs rhs : Option Ty) (token : String),
      (t.resolveComparison (S := classTypes) lhs rhs token).StopsWhenCalledOff (reg.host flags)) ∧
    (∀ (operand : Option Ty) (token : String),
      (t.resolveUnary (S := classTypes) operand token).StopsWhenCalledOff (reg.host flags)) ∧
    (∀ container index : Option (Expr Ty),
      (t.resolveRead (S := classTypes) container index).StopsWhenCalledOff (reg.host flags)) ∧
    (∀ container index value : Option (Expr Ty),
      (t.resolveWrite (S := classTypes) container index value).StopsWhenCalledOff
        (reg.host flags)) ∧
    (∀ (target : Option Ty) (source : Option (Expr Ty)),
      (t.converts (S := classTypes) target source).StopsWhenCalledOff (reg.host flags)) := by
  have hhost := Registry.host_answers hflag
  refine ⟨?_, ?_, ?_, ?_, ?_, ?_, ?_, ?_, ?_⟩
  · intro receiver name args
    exact (forwards_resolve receiver name args).stopsWhenCalledOff hhost
  · intro receiver name args
    exact (forwards_resolveExprs receiver name args).stopsWhenCalledOff hhost
  · intro lhs rhs token
    exact (OperatorTable.forwards_namedCall _ lhs [rhs]).toInquiry.stopsWhenCalledOff hhost
  · intro operands tokens
    exact (t.forwards_chainCalls operands tokens).toInquiry.stopsWhenCalledOff hhost
  · intro lhs rhs token
    exact (OperatorTable.forwards_namedCall _ lhs [rhs]).toInquiry.stopsWhenCalledOff hhost
  · intro operand token
    exact (OperatorTable.forwards_namedCall _ operand []).toInquiry.stopsWhenCalledOff hhost
  · intro container index
    exact (t.forwards_readCalls container index).toInquiry.stopsWhenCalledOff hhost
  · intro container index value
    exact (t.forwards_writeCalls container index value).toInquiry.stopsWhenCalledOff hhost
  · intro target source
    exact (t.forwards_conversionCalls target source).toInquiry.stopsWhenCalledOff hhost

namespace Registry

/-- A `Cell<long>`. -/
def cellOfLong : Ty := .nominal ⟨1⟩ [.primitive .long]

/-- What is asked when an `int` is added to a `Cell<long>`: after the methods are known, the second
one of them is tried and does not take the `int`, and the third one does. -/
def cellQuestions : List (Question classTypes) :=
  [.declaration cellOfLong, .methods ⟨1⟩ "add", .binding cellOfLong,
    .assignable (.array (.primitive .long)) (.primitive .int),
    .assignable (.primitive .long) (.primitive .int)]

theorem run_resolveBinary_cell :
    (OperatorTable.standard.resolveBinary (S := classTypes) (some cellOfLong)
      (some (.primitive .int)) "+").run (cellRegistry.host Flags.empty.fresh.2) [] =
        ⟨cellQuestions, .ok (.resolved cellOfLong)⟩ := by
  have hbinary : OperatorTable.standard.resolveBinary (S := classTypes) (some cellOfLong)
      (some (.primitive .int)) "+" =
        resolveKnown (S := classTypes) cellOfLong "add" [.primitive .int] :=
    Calls.toInquiry_call _ _ _
  have hmethods (asked : List (Question classTypes)) :
      (Inquiry.methods (S := classTypes) ⟨1⟩ "add").run (cellRegistry.host Flags.empty.fresh.2)
        asked = ⟨asked ++ [.methods ⟨1⟩ "add"], .ok (cellDecl.methods.map MethodDecl.signature)⟩ := by
    rw [Inquiry.methods, Inquiry.run_ask, host_of_not_raised (by decide)]
    exact congrArg (fun sigs => Transcript.mk _ (Except.ok sigs)) overloads_cellRegistry
  rw [hbinary, resolveKnown]
  refine (Inquiry.run_bind_of_ok rfl _).trans ?_
  exact Inquiry.run_bind_of_ok (hmethods _) _

/-- An `int` is added to a `Cell<long>`. The host gives up when it is asked how the receiver fills
its parameters, or when it is asked about the argument for the first or the second time, or not at
all. -/
theorem operators_stop_when_calledOff_cell :
    let sum := OperatorTable.standard.resolveBinary (S := classTypes) (some cellOfLong)
      (some (.primitive .int)) "+"
    let host := cellRegistry.host Flags.empty.fresh.2
    sum.run (host.limit 2) [] = ⟨cellQuestions.take 3, .error .cancelled⟩ ∧
      sum.run (host.limit 3) [] = ⟨cellQuestions.take 4, .error .cancelled⟩ ∧
      sum.run (host.limit 4) [] = ⟨cellQuestions, .error .cancelled⟩ ∧
      sum.run (host.limit 5) [] = ⟨cellQuestions, .ok (.resolved cellOfLong)⟩ := by
  intro sum host
  obtain ⟨-, -, hbinary, -⟩ := operators_stop_when_calledOff cellRegistry Flags.empty.fresh.2
    (by decide) OperatorTable.standard
  obtain ⟨calls, result, hrun, hlimit⟩ := hbinary (some cellOfLong) (some (.primitive .int)) "+"
  obtain ⟨rfl, hresult⟩ := Transcript.mk.inj (hrun.symm.trans run_resolveBinary_cell)
  rw [hresult] at hlimit
  exact ⟨hlimit 2, hlimit 3, hlimit 4, hlimit 5⟩

end Registry

end MethodOperators
