import MethodOperators.Suppression

/-! What the checks of an expression or a variable remove from a buffer of reports, shape by shape.
-/

namespace MethodOperators

variable {S : TypeSystem}

/-! ### The newest error -/

/-- The newest of some reports, if it is an error with exactly the range `span`. -/
def errorAt? (ds : List Diagnostic) (span : Span) : Option Diagnostic :=
  ds.getLast?.filter fun d => d.isError && decide (d.span = span)

/-- What is removed from some reports when the code that `span` is reported for is `legal` or not:
the newest one, if it is an error with exactly this range, and nothing otherwise. -/
def voided (legal : Bool) (span : Span) (ds : List Diagnostic) : List Diagnostic :=
  if legal then (errorAt? ds span).toList else []

theorem errorAt?_eq_some_iff {ds : List Diagnostic} {span : Span} {d : Diagnostic} :
    errorAt? ds span = some d ↔ ds.getLast? = some d ∧ d.isError = true ∧ d.span = span := by
  simp [errorAt?, Option.filter_eq_some_iff]

namespace Buffer

/-- The running count of errors is the number of errors among the reports. -/
def Counted (b : Buffer) : Prop := b.errorCount = b.errors.length

theorem last?_eq_getLast? (b : Buffer) : b.last? = b.toList.getLast? := by
  simp [last?, toList, Array.getLast?_toList]

theorem toList_of_last? {b : Buffer} {d : Diagnostic} (h : b.last? = some d) :
    b.toList = b.diagnostics.pop.toList ++ [d] := by
  rw [last?_eq_getLast?] at h
  obtain ⟨older, holder⟩ := List.getLast?_eq_some_iff.1 h
  have hdiagnostics : b.diagnostics.toList = older ++ [d] := holder
  rw [Array.toList_pop, hdiagnostics, List.dropLast_concat]
  exact holder

/-- The newest report is an error, so that a right count cannot be zero. -/
theorem Counted.errorCount_pos {b : Buffer} (hb : b.Counted) {d : Diagnostic}
    (hlast : b.last? = some d) (herror : d.isError = true) : 0 < b.errorCount := by
  have hmem : d ∈ b.errors := by
    refine List.mem_filter.2 ⟨?_, herror⟩
    rw [toList_of_last? hlast]
    exact List.mem_append_right _ (List.mem_singleton_self d)
  exact hb ▸ List.length_pos_of_mem hmem

theorem Counted.newestIsErrorAt {b : Buffer} (hb : b.Counted) (span : Span) :
    Buffer.sink.newestIsErrorAt b span = (errorAt? b.toList span).isSome := by
  have hsink : Buffer.sink.newestIsErrorAt b span =
      (b.errorCount != 0 && (errorAt? b.toList span).isSome) := by
    simp only [Sink.newestIsErrorAt, Buffer.sink, errorAt?, last?_eq_getLast?]
    cases b.toList.getLast? <;> simp [Option.filter, apply_ite]
  rw [hsink]
  cases hat : errorAt? b.toList span with
  | none => simp
  | some d =>
    obtain ⟨hlast, herror, _⟩ := errorAt?_eq_some_iff.1 hat
    rw [← last?_eq_getLast?] at hlast
    have hpos := hb.errorCount_pos hlast herror
    simp only [Option.isSome_some, Bool.and_true, bne_iff_ne]
    omega

/-- Taking back the newest report, which is an error, leaves all others and a right count. -/
theorem Counted.retract {b : Buffer} (hb : b.Counted) {span : Span} {d : Diagnostic}
    (hd : errorAt? b.toList span = some d) :
    ∃ rest : Buffer, b.retract = (some d, rest) ∧ b.toList = rest.toList ++ [d] ∧ rest.Counted := by
  obtain ⟨hlast, herror, _⟩ := errorAt?_eq_some_iff.1 hd
  rw [← last?_eq_getLast?] at hlast
  have hlist := toList_of_last? hlast
  refine ⟨⟨b.diagnostics.pop, b.errorCount - 1⟩, ?_, hlist, ?_⟩
  · simp [Buffer.retract, hlast, herror]
  · have hcount :
        b.errorCount = (b.diagnostics.pop.toList.filter Diagnostic.isError).length + 1 := by
      rw [hb, errors, hlist, List.filter_append, List.length_append]
      simp [herror]
    simp only [Counted, errors, toList]
    omega

end Buffer

/-! ### Checks in general -/

namespace Transcript

def resolves {α : Type} (tr : Transcript S (Resolution α)) : Bool :=
  match tr.outcome with
  | .ok r => r.isResolved
  | .error _ => false

def holds (tr : Transcript S Bool) : Bool :=
  match tr.outcome with
  | .ok result => result
  | .error _ => false

end Transcript

/-- The questions that have been asked once a check has been made: a check whose range is not
flagged asks nothing. -/
def Check.askedAfter (host : Host S) (check : Check S) (asked : List (Question S))
    (ds : List Diagnostic) : List (Question S) :=
  if (errorAt? ds check.span).isSome then (check.legal.run host asked).asked else asked

/-- What some checks remove from reports, each of them looking at what the ones before it left. -/
def voidedBy (host : Host S) :
    (checks : List (Check S)) → (asked : List (Question S)) → List Diagnostic → List Diagnostic
  | [], _, _ => []
  | check :: checks, asked, ds =>
    let gone := voided (check.legal.run host asked).holds check.span ds
    voidedBy host checks (check.askedAfter host asked ds)
      (ds.take (ds.length - gone.length)) ++ gone

/-- One check, unless the host calls it off, removes what it voids and hands the rest of the buffer
to the checks after it. -/
theorem settle_cons {host : Host S} {check : Check S} {checks : List (Check S)}
    {asked : List (Question S)} {b : Buffer} (hb : b.Counted) {result : Bool}
    (hok : (settle host Buffer.sink (check :: checks) asked b).outcome = .ok result) :
    ∃ (rest : Buffer) (result' : Bool), rest.Counted ∧
      b.toList = rest.toList ++ voided (check.legal.run host asked).holds check.span b.toList ∧
      (settle host Buffer.sink (check :: checks) asked b).reports =
        (settle host Buffer.sink checks (check.askedAfter host asked b.toList) rest).reports ∧
      (settle host Buffer.sink checks (check.askedAfter host asked b.toList) rest).outcome =
        .ok result' := by
  rw [settle, hb.newestIsErrorAt] at hok ⊢
  cases hat : errorAt? b.toList check.span with
  | none =>
    rw [hat] at hok
    simp only [Option.isSome_none, Bool.false_eq_true, if_false] at hok ⊢
    refine ⟨b, result, hb, ?_, ?_, ?_⟩
    · simp [voided, hat]
    · simp [Check.askedAfter, hat]
    · simpa [Check.askedAfter, hat] using hok
  | some d =>
    rw [hat] at hok
    have hasked : check.askedAfter host asked b.toList = (check.legal.run host asked).asked := by
      simp [Check.askedAfter, hat]
    simp only [Option.isSome_some, if_true] at hok ⊢
    rw [hasked]
    cases hrun : (check.legal.run host asked).outcome with
    | error e => simp [hrun] at hok
    | ok legal =>
      cases legal with
      | false =>
        -- The error stays, and the later checks see the same buffer.
        refine ⟨b, result, hb, ?_, ?_, ?_⟩
        · simp [voided, Transcript.holds, hrun]
        · simp
        · simpa [hrun] using hok
      | true =>
        obtain ⟨rest, hretract, hlist, hrest⟩ := hb.retract hat
        have hsink : Buffer.sink.retract b = (some d, rest) := hretract
        simp only [hrun, hsink] at hok
        obtain ⟨result', hresult'⟩ := exists_ok_of_map_eq_ok hok
        refine ⟨rest, result', hrest, ?_, ?_, hresult'⟩
        · simpa [voided, Transcript.holds, hrun, hat] using hlist
        · simp [hsink]

/-- Checks remove from a buffer what they void one after the other, and keep its count right. -/
theorem settle_buffer {host : Host S} {checks : List (Check S)} {asked : List (Question S)}
    {b : Buffer} (hb : b.Counted) {result : Bool}
    (hok : (settle host Buffer.sink checks asked b).outcome = .ok result) :
    b.toList = (settle host Buffer.sink checks asked b).reports.toList ++
        voidedBy host checks asked b.toList ∧
      (settle host Buffer.sink checks asked b).reports.Counted := by
  induction checks generalizing asked b result with
  | nil => exact ⟨by simp [settle, voidedBy], hb⟩
  | cons check checks ih =>
    obtain ⟨rest, result', hrest, hlist, hreports, hok'⟩ := settle_cons hb hok
    obtain ⟨hleft, hcounted⟩ := ih hrest hok'
    rw [hreports]
    refine ⟨?_, hcounted⟩
    -- What the later checks look at is what this one has left of the buffer.
    have htake := take_of_eq_append hlist
    rw [voidedBy, htake, ← List.append_assoc, ← hleft]
    exact hlist

/-! ### Expressions and variables -/

namespace OperatorTable

/-- What the check of a chain with the range `span` removes. Two operands with one comparison
between them are compared, and every other chain is a chain of binary operators. -/
def voidedByChain (t : OperatorTable) (host : Host S) (asked : List (Question S)) (span : Span)
    (operands : List (Expr S.Ty)) (tokens : List String) (ds : List Diagnostic) : List Diagnostic :=
  match operands, tokens with
  | [lhs, rhs], [token] =>
    if t.isComparison token then
      voided ((t.resolveComparison lhs.ty rhs.ty token).run host asked).resolves span ds
    else voided ((t.resolveChain [lhs.ty, rhs.ty] [token]).run host asked).resolves span ds
  | _, _ => voided ((t.resolveChain (operands.map Expr.ty) tokens).run host asked).resolves span ds

/-- What the checks of a plain assignment with the range `span` remove. An error in the range of an
element that is written to goes first, and the error of the assignment is looked for in the rest. -/
def voidedByAssignment (t : OperatorTable) (host : Host S) (asked : List (Question S)) (span : Span)
    (target : Expr S.Ty) (value : Option (Expr S.Ty)) (ds : List Diagnostic) : List Diagnostic :=
  match target.shape with
  | .index container index =>
    let store := (t.resolveWrite (some container) index value).run host asked
    let stored := voided store.resolves target.span ds
    let asked := if (errorAt? ds target.span).isSome then store.asked else asked
    let left := ds.take (ds.length - stored.length)
    voided ((t.converts target.ty value).run host asked).holds span left ++ stored
  | _ => voided ((t.converts target.ty value).run host asked).holds span ds

/-- What the checks of an expression remove from some reports. -/
def voidedByExpression (t : OperatorTable) (host : Host S) (asked : List (Question S))
    (e : Expr S.Ty) (ds : List Diagnostic) : List Diagnostic :=
  match e.shape with
  | .chain operands tokens => t.voidedByChain host asked e.span operands tokens ds
  | .unary token operand =>
    voided ((t.resolveUnary (operand.bind Expr.ty) token).run host asked).resolves e.span ds
  | .index container index =>
    voided ((t.resolveRead (some container) index).run host asked).resolves container.span ds
  | .assign token target value =>
    if token = "=" then t.voidedByAssignment host asked e.span target value ds else []
  | .leaf => []

def voidedByVariable (t : OperatorTable) (host : Host S) (asked : List (Question S))
    (v : VarDecl S.Ty) (ds : List Diagnostic) : List Diagnostic :=
  match v.init with
  | some init => voided ((t.converts v.ty (some init)).run host asked).holds v.flaggedSpan ds
  | none => []

end OperatorTable

theorem Transcript.holds_map_isResolved {α : Type} (host : Host S) (asked : List (Question S))
    (m : Inquiry S (Resolution α)) :
    ((Resolution.isResolved <$> m).run host asked).holds = (m.run host asked).resolves := by
  rw [Inquiry.run_map]
  simp only [holds, resolves]
  cases (m.run host asked).outcome <;> rfl

theorem voidedBy_singleton (host : Host S) (check : Check S) (asked : List (Question S))
    (ds : List Diagnostic) :
    voidedBy host [check] asked ds = voided (check.legal.run host asked).holds check.span ds := by
  simp [voidedBy]

theorem voidedBy_assignment (t : OperatorTable) (host : Host S) (asked : List (Question S))
    (span : Span) (target : Expr S.Ty) (value : Option (Expr S.Ty)) (ds : List Diagnostic) :
    voidedBy host (t.storeChecks target value ++ [⟨span, t.converts target.ty value⟩]) asked ds =
      t.voidedByAssignment host asked span target value ds := by
  cases hshape : target.shape with
  | index container index =>
    simp only [OperatorTable.storeChecks, OperatorTable.voidedByAssignment, hshape,
      List.cons_append, List.nil_append]
    rw [voidedBy, voidedBy_singleton, Transcript.holds_map_isResolved]
    simp only [Check.askedAfter, Inquiry.run_map]
  | chain | unary | assign | leaf =>
    simp only [OperatorTable.storeChecks, OperatorTable.voidedByAssignment, hshape,
      List.nil_append, voidedBy_singleton]

theorem voidedBy_chain (t : OperatorTable) (host : Host S) (asked : List (Question S)) (span : Span)
    (operands : List (Expr S.Ty)) (tokens : List String) (ds : List Diagnostic) :
    voided ((t.resolveOperators operands tokens).run host asked).resolves span ds =
      t.voidedByChain host asked span operands tokens ds := by
  fun_cases OperatorTable.voidedByChain with
  | case1 lhs rhs token hcomparison => simp [OperatorTable.resolveOperators, hcomparison]
  | case2 lhs rhs token hcomparison => simp [OperatorTable.resolveOperators, hcomparison]
  | case3 operands tokens hother =>
    rw [OperatorTable.resolveOperators]
    exact hother

theorem voidedBy_expressionChecks (t : OperatorTable) (host : Host S) (asked : List (Question S))
    (e : Expr S.Ty) (ds : List Diagnostic) :
    voidedBy host (t.expressionChecks e) asked ds = t.voidedByExpression host asked e ds := by
  rw [OperatorTable.expressionChecks, OperatorTable.voidedByExpression]
  cases hshape : e.shape with
  | chain operands tokens =>
    simp only [OperatorTable.chainChecks, hshape, voidedBy_singleton,
      Transcript.holds_map_isResolved]
    exact voidedBy_chain t host asked e.span operands tokens ds
  | unary token operand =>
    simp only [OperatorTable.unaryChecks, hshape, voidedBy_singleton,
      Transcript.holds_map_isResolved]
  | index container index =>
    simp only [OperatorTable.indexChecks, hshape, voidedBy_singleton,
      Transcript.holds_map_isResolved]
  | assign token target value =>
    simp only [OperatorTable.assignmentChecks, hshape]
    split
    · exact voidedBy_assignment t host asked e.span target value ds
    · rfl
  | leaf => rfl

theorem voidedBy_variableChecks (t : OperatorTable) (host : Host S) (asked : List (Question S))
    (v : VarDecl S.Ty) (ds : List Diagnostic) :
    voidedBy host (t.variableChecks v) asked ds = t.voidedByVariable host asked v ds := by
  rw [OperatorTable.variableChecks, OperatorTable.voidedByVariable]
  cases v.init with
  | none => rfl
  | some init => exact voidedBy_singleton host _ asked ds

/-- Whenever the checks of an expression or of a variable come to an end, the buffer is what it was
without the reports that the expression or the variable voids, and its count is right. -/
theorem settle_leaves_rest (host : Host S) (t : OperatorTable) (asked : List (Question S))
    (b : Buffer) (hb : b.Counted) :
    (∀ (e : Expr S.Ty) (result : Bool),
      (settle host Buffer.sink (t.expressionChecks e) asked b).outcome = .ok result →
        b.toList = (settle host Buffer.sink (t.expressionChecks e) asked b).reports.toList ++
            t.voidedByExpression host asked e b.toList ∧
          (settle host Buffer.sink (t.expressionChecks e) asked b).reports.Counted) ∧
    (∀ (v : VarDecl S.Ty) (result : Bool),
      (settle host Buffer.sink (t.variableChecks v) asked b).outcome = .ok result →
        b.toList = (settle host Buffer.sink (t.variableChecks v) asked b).reports.toList ++
            t.voidedByVariable host asked v b.toList ∧
          (settle host Buffer.sink (t.variableChecks v) asked b).reports.Counted) := by
  constructor
  · intro e result hok
    rw [← voidedBy_expressionChecks]
    exact settle_buffer hb hok
  · intro v result hok
    rw [← voidedBy_variableChecks]
    exact settle_buffer hb hok

/-- A type system with a single type. -/
def oneType : TypeSystem where
  Ty := Unit
  Decl := Unit
  Subst := Unit
  substitute := fun _ ty => ty

/-- A host of the single type, for which every call with one or two arguments is legal. -/
def obligingHost : Host oneType := fun _ question =>
  .ok (match question with
    | .declaration _ => some ()
    | .methods _ _ => [⟨[()], ()⟩, ⟨[(), ()], ()⟩]
    | .binding _ => ()
    | .assignable _ _ => true)

/-- An assignment `a[i] = v` of which every part has the single type. -/
def elementAssignment : Expr oneType.Ty :=
  .assign "="
    ((Expr.index (.leaf (some ()) ⟨0, 1⟩) (some (.leaf (some ()) ⟨2, 3⟩)) ⟨0, 4⟩).setType ())
    (some (.leaf (some ()) ⟨7, 8⟩))

/-- A warning, an error about `elementAssignment`, and an error about its target. -/
def elementReports : List Diagnostic :=
  [{ severity := .warning, message := "unused", span := ⟨0, 4⟩ },
    { severity := .error, message := "incompatible types", span := ⟨0, 8⟩ },
    { severity := .error, message := "array type expected", span := ⟨0, 4⟩ }]

theorem settle_leaves_rest_element :
    (Buffer.ofList elementReports).Counted ∧
      (settle obligingHost Buffer.sink
        (OperatorTable.standard.expressionChecks elementAssignment) []
        (Buffer.ofList elementReports)).outcome = .ok true ∧
      elementReports =
        (settle obligingHost Buffer.sink
          (OperatorTable.standard.expressionChecks elementAssignment) []
          (Buffer.ofList elementReports)).reports.toList ++ elementReports.drop 1 := by
  have hcounted : (Buffer.ofList elementReports).Counted := rfl
  refine ⟨hcounted, rfl, ?_⟩
  exact ((settle_leaves_rest obligingHost .standard [] _ hcounted).1 elementAssignment true rfl).1

end MethodOperators
