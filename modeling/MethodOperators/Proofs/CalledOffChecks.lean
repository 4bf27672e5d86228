import MethodOperators.Proofs.Retraction

/-! When one of several checks is called off, those before it have done their work and those after
it are not made. Only an assignment to an element has two checks. -/

namespace MethodOperators

variable {S : TypeSystem} {σ : Type}

/-! ### Checks in general -/

/-- The reports that a check leaves, unless it is called off. -/
def Check.left (host : Host S) (sink : Sink σ) (check : Check S) (asked : List (Question S))
    (reports : σ) : σ :=
  if sink.newestIsErrorAt reports check.span && (check.legal.run host asked).holds then
    (sink.retract reports).2
  else reports

/-- A check is called off and leaves the reports as they are, or it hands over what it leaves to the
checks after it, whichever these are. -/
theorem settle_cons_cases (host : Host S) (sink : Sink σ) (check : Check S)
    (asked : List (Question S)) (reports : σ) :
    (∃ cause, (check.legal.run host asked).outcome = .error cause ∧ ∀ checks,
      (settle host sink (check :: checks) asked reports).outcome = .error cause ∧
        (settle host sink (check :: checks) asked reports).reports = reports) ∨
    ∃ asked', ∀ checks,
      let rest := settle host sink checks asked' (check.left host sink asked reports)
      (∀ cause, (settle host sink (check :: checks) asked reports).outcome = .error cause ↔
        rest.outcome = .error cause) ∧
      (settle host sink (check :: checks) asked reports).asked = rest.asked ∧
        (settle host sink (check :: checks) asked reports).reports = rest.reports := by
  by_cases hflag : sink.newestIsErrorAt reports check.span = true
  · cases hrun : (check.legal.run host asked).outcome with
    | error cause =>
      refine .inl ⟨cause, rfl, fun checks => ?_⟩
      simp [settle, hflag, hrun]
    | ok legal =>
      refine .inr ⟨(check.legal.run host asked).asked, fun checks => ?_⟩
      cases legal with
      | false =>
        have hleft : check.left host sink asked reports = reports := by
          simp [Check.left, Transcript.holds, hrun]
        simp [settle, hflag, hrun, hleft]
      | true =>
        have hleft : check.left host sink asked reports = (sink.retract reports).2 := by
          simp [Check.left, Transcript.holds, hflag, hrun]
        simp only [settle, hflag, hrun, hleft, if_true, and_true]
        intro cause
        -- Whether an error was taken back here does not touch a failure later on.
        cases (settle host sink checks (check.legal.run host asked).asked
          (sink.retract reports).2).outcome with
        | ok result => simp [Except.map]
        | error e => simp [Except.map]
  · refine .inr ⟨asked, fun checks => ?_⟩
    have hleft : check.left host sink asked reports = reports := by
      simp [Check.left, hflag]
    simp [settle, hflag, hleft]

/-- Checks that end with a failure split at the one that was called off. Those before it came to
their end, and what they left is left by all. -/
theorem settle_called_off {host : Host S} {sink : Sink σ} {checks : List (Check S)}
    {asked : List (Question S)} {reports : σ} {cause : Cancelled}
    (h : (settle host sink checks asked reports).outcome = .error cause) :
    ∃ before check after, checks = before ++ check :: after ∧
      (check.legal.run host (settle host sink before asked reports).asked).outcome =
        .error cause ∧
      (settle host sink checks asked reports).reports =
        (settle host sink before asked reports).reports := by
  induction checks generalizing asked reports with
  | nil => cases h
  | cons check checks ih =>
    rcases settle_cons_cases host sink check asked reports with ⟨e, hrun, hcons⟩ | ⟨asked', hcons⟩
    · obtain ⟨houtcome, hreports⟩ := hcons checks
      rw [houtcome] at h
      obtain rfl := Except.error.inj h
      exact ⟨[], check, checks, rfl, hrun, hreports⟩
    · obtain ⟨houtcome, -, hreports⟩ := hcons checks
      obtain ⟨before, last, after, rfl, hlast, hleft⟩ := ih ((houtcome cause).1 h)
      obtain ⟨-, hasked', hreports'⟩ := hcons before
      refine ⟨check :: before, last, after, rfl, ?_, ?_⟩
      · rw [hasked']
        exact hlast
      · rw [hreports, hreports']
        exact hleft

/-- A single check that is called off takes nothing back. -/
theorem reports_of_called_off_of_length_le_one {host : Host S} {sink : Sink σ}
    {checks : List (Check S)} {asked : List (Question S)} {reports : σ} {cause : Cancelled}
    (hlength : checks.length ≤ 1)
    (h : (settle host sink checks asked reports).outcome = .error cause) :
    (settle host sink checks asked reports).reports = reports := by
  obtain ⟨before, check, after, rfl, -, hreports⟩ := settle_called_off h
  have hbefore : before = [] := by
    rw [List.length_append, List.length_cons] at hlength
    exact List.eq_nil_of_length_eq_zero (by omega)
  rw [hreports, hbefore]
  rfl

/-- When the second of two checks is called off, the first one has been made. When already the first
one is, it takes nothing back, as it does not when it finds nothing legal. -/
theorem reports_of_called_off_pair {host : Host S} {sink : Sink σ} {first second : Check S}
    {asked : List (Question S)} {reports : σ} {cause : Cancelled}
    (h : (settle host sink [first, second] asked reports).outcome = .error cause) :
    (settle host sink [first, second] asked reports).reports =
      first.left host sink asked reports := by
  rcases settle_cons_cases host sink first asked reports with ⟨e, hrun, hcons⟩ | ⟨asked', hcons⟩
  · rw [(hcons [second]).2]
    simp [Check.left, Transcript.holds, hrun]
  · obtain ⟨houtcome, -, hreports⟩ := hcons [second]
    rw [hreports]
    exact reports_of_called_off_of_length_le_one (Nat.le_refl 1) ((houtcome cause).1 h)

/-! ### Expressions and variables -/

namespace OperatorTable

/-- A plain assignment to an element, of which the newest report is an error about the element, and
writing the element resolves. -/
def StoreVoids (t : OperatorTable) (host : Host S) (asked : List (Question S)) (e : Expr S.Ty)
    (b : Buffer) : Prop :=
  ∃ target value container index,
    e.shape = .assign "=" target value ∧ target.shape = .index container index ∧
      Buffer.sink.newestIsErrorAt b target.span = true ∧
      ((t.resolveWrite (some container) index value).run host asked).resolves = true

/-- What is left of a buffer is all of it, or all but the newest report where that is the error of an
element that is written to. -/
def KeptUpToStore (t : OperatorTable) (host : Host S) (asked : List (Question S)) (e : Expr S.Ty)
    (b left : Buffer) : Prop :=
  (t.StoreVoids host asked e b → left = ⟨b.diagnostics.pop, b.errorCount - 1⟩) ∧
    (¬ t.StoreVoids host asked e b → left = b)

theorem storeVoids_iff {t : OperatorTable} {host : Host S} {asked : List (Question S)}
    {e target container : Expr S.Ty} {value index : Option (Expr S.Ty)} {b : Buffer}
    (he : e.shape = .assign "=" target value) (htarget : target.shape = .index container index) :
    t.StoreVoids host asked e b ↔ Buffer.sink.newestIsErrorAt b target.span = true ∧
      ((t.resolveWrite (some container) index value).run host asked).resolves = true := by
  constructor
  · rintro ⟨target', value', container', index', he', htarget', hvoid⟩
    obtain ⟨-, rfl, rfl⟩ := Shape.assign.inj (he.symm.trans he')
    obtain ⟨rfl, rfl⟩ := Shape.index.inj (htarget.symm.trans htarget')
    exact hvoid
  · intro hvoid
    exact ⟨target, value, container, index, he, htarget, hvoid⟩

end OperatorTable

theorem Buffer.retract_of_newestIsErrorAt {b : Buffer} {span : Span}
    (h : Buffer.sink.newestIsErrorAt b span = true) :
    b.retract.2 = ⟨b.diagnostics.pop, b.errorCount - 1⟩ := by
  rw [Sink.newestIsErrorAt, Bool.and_eq_true, Option.any_eq_true] at h
  obtain ⟨-, d, hlast, hd⟩ := h
  have hlast' : b.last? = some d := hlast
  have herror : d.isError = true := (Bool.and_eq_true_iff.1 hd).1
  simp [retract, hlast', herror]

theorem keptUpToStore_of_eq {t : OperatorTable} {host : Host S} {asked : List (Question S)}
    {e : Expr S.Ty} {b left : Buffer} (hvoid : ¬ t.StoreVoids host asked e b) (hleft : left = b) :
    t.KeptUpToStore host asked e b left :=
  ⟨fun h => absurd h hvoid, fun _ => hleft⟩

/-- The two checks of an assignment to an element: what the first one took back stays taken back. -/
theorem reports_of_called_off_store {t : OperatorTable} {host : Host S}
    {asked : List (Question S)} {e target container : Expr S.Ty}
    {value index : Option (Expr S.Ty)} {b : Buffer} {cause : Cancelled}
    (he : e.shape = .assign "=" target value) (htarget : target.shape = .index container index)
    (h : (settle host Buffer.sink (t.assignmentChecks e) asked b).outcome = .error cause) :
    t.KeptUpToStore host asked e b
      (settle host Buffer.sink (t.assignmentChecks e) asked b).reports := by
  have hchecks : t.assignmentChecks e =
      [⟨target.span, Resolution.isResolved <$> t.resolveWrite (some container) index value⟩,
        ⟨e.span, t.converts target.ty value⟩] := by
    simp [OperatorTable.assignmentChecks, OperatorTable.storeChecks, he, htarget]
  rw [hchecks] at h ⊢
  rw [reports_of_called_off_pair h, OperatorTable.KeptUpToStore,
    OperatorTable.storeVoids_iff he htarget]
  simp only [Check.left, Transcript.holds_map_isResolved, ← Bool.and_eq_true]
  constructor
  · intro hvoid
    rw [if_pos hvoid]
    exact Buffer.retract_of_newestIsErrorAt (Bool.and_eq_true_iff.1 hvoid).1
  · intro hvoid
    rw [if_neg hvoid]

theorem reports_of_called_off_assignment {t : OperatorTable} {host : Host S}
    {asked : List (Question S)} {e : Expr S.Ty} {b : Buffer} {cause : Cancelled}
    (h : (settle host Buffer.sink (t.assignmentChecks e) asked b).outcome = .error cause) :
    t.KeptUpToStore host asked e b
      (settle host Buffer.sink (t.assignmentChecks e) asked b).reports := by
  by_cases hstore : ∃ target value container index,
      e.shape = .assign "=" target value ∧ target.shape = .index container index
  · obtain ⟨target, value, container, index, he, htarget⟩ := hstore
    exact reports_of_called_off_store he htarget h
  · -- Without an element there is at most one check.
    have hlength : (t.assignmentChecks e).length ≤ 1 := by
      cases he : e.shape with
      | chain | unary | index | leaf => simp [OperatorTable.assignmentChecks, he]
      | assign token target value =>
        by_cases htoken : token = "="
        · cases htarget : target.shape with
          | index container index =>
            exact absurd ⟨target, value, container, index, htoken ▸ he, htarget⟩ hstore
          | chain | unary | assign | leaf =>
            simp [OperatorTable.assignmentChecks, OperatorTable.storeChecks, he, htarget, htoken]
        · simp [OperatorTable.assignmentChecks, he, htoken]
    refine keptUpToStore_of_eq ?_ (reports_of_called_off_of_length_le_one hlength h)
    rintro ⟨target, value, container, index, he, htarget, -⟩
    exact hstore ⟨target, value, container, index, he, htarget⟩

/-- A check that is called off leaves the buffer as it was, its count included. There is one
exception: of an assignment to an element, the error about the element is gone, and nothing else,
if writing the element had resolved before the check of the assignment was called off. -/
theorem called_off_leaves_reports (host : Host S) (t : OperatorTable) (asked : List (Question S))
    (b : Buffer) (cause : Cancelled) :
    (∀ e : Expr S.Ty,
      (settle host Buffer.sink (t.chainChecks e) asked b).outcome = .error cause →
        (settle host Buffer.sink (t.chainChecks e) asked b).reports = b) ∧
    (∀ e : Expr S.Ty,
      (settle host Buffer.sink (t.unaryChecks e) asked b).outcome = .error cause →
        (settle host Buffer.sink (t.unaryChecks e) asked b).reports = b) ∧
    (∀ e : Expr S.Ty,
      (settle host Buffer.sink (t.indexChecks e) asked b).outcome = .error cause →
        (settle host Buffer.sink (t.indexChecks e) asked b).reports = b) ∧
    (∀ v : VarDecl S.Ty,
      (settle host Buffer.sink (t.variableChecks v) asked b).outcome = .error cause →
        (settle host Buffer.sink (t.variableChecks v) asked b).reports = b) ∧
    (∀ e : Expr S.Ty,
      (settle host Buffer.sink (t.assignmentChecks e) asked b).outcome = .error cause →
        t.KeptUpToStore host asked e b
          (settle host Buffer.sink (t.assignmentChecks e) asked b).reports) ∧
    (∀ e : Expr S.Ty,
      (settle host Buffer.sink (t.expressionChecks e) asked b).outcome = .error cause →
        t.KeptUpToStore host asked e b
          (settle host Buffer.sink (t.expressionChecks e) asked b).reports) := by
  have hchain (e : Expr S.Ty) : (t.chainChecks e).length ≤ 1 := by
    unfold OperatorTable.chainChecks
    split <;> simp
  have hunary (e : Expr S.Ty) : (t.unaryChecks e).length ≤ 1 := by
    unfold OperatorTable.unaryChecks
    split <;> simp
  have hindex (e : Expr S.Ty) : (t.indexChecks e).length ≤ 1 := by
    unfold OperatorTable.indexChecks
    split <;> simp
  have hvariable (v : VarDecl S.Ty) : (t.variableChecks v).length ≤ 1 := by
    unfold OperatorTable.variableChecks
    split <;> simp
  refine ⟨fun e h => reports_of_called_off_of_length_le_one (hchain e) h,
    fun e h => reports_of_called_off_of_length_le_one (hunary e) h,
    fun e h => reports_of_called_off_of_length_le_one (hindex e) h,
    fun v h => reports_of_called_off_of_length_le_one (hvariable v) h,
    fun e h => reports_of_called_off_assignment h, ?_⟩
  intro e h
  cases he : e.shape with
  | assign token target value =>
    have hchecks : t.expressionChecks e = t.assignmentChecks e := by
      rw [OperatorTable.expressionChecks, he]
    rw [hchecks] at h ⊢
    exact reports_of_called_off_assignment h
  | chain | unary | index | leaf =>
    have hlength : (t.expressionChecks e).length ≤ 1 := by
      simp [OperatorTable.expressionChecks, he, hchain, hunary, hindex]
    refine keptUpToStore_of_eq ?_ (reports_of_called_off_of_length_le_one hlength h)
    rintro ⟨target, value, container, index, he', -⟩
    cases he.symm.trans he'

/-- Writing the element takes five questions, and the sixth is refused. -/
theorem called_off_leaves_reports_element :
    (settle (obligingHost.limit 5) Buffer.sink
        (OperatorTable.standard.expressionChecks elementAssignment) []
        (Buffer.ofList elementReports)).outcome = .error .cancelled ∧
      (settle (obligingHost.limit 5) Buffer.sink
        (OperatorTable.standard.expressionChecks elementAssignment) []
        (Buffer.ofList elementReports)).reports = Buffer.ofList (elementReports.take 2) := by
  have hvoid : OperatorTable.standard.StoreVoids (obligingHost.limit 5) [] elementAssignment
      (Buffer.ofList elementReports) :=
    ⟨_, _, _, _, rfl, rfl, rfl, rfl⟩
  have hkept := (called_off_leaves_reports (obligingHost.limit 5) .standard []
    (Buffer.ofList elementReports) .cancelled).2.2.2.2.2 elementAssignment rfl
  exact ⟨rfl, hkept.1 hvoid⟩

/-- Checks that were called off may have taken back an error. -/
theorem called_off_changes_reports :
    (settle (obligingHost.limit 5) Buffer.sink
        (OperatorTable.standard.expressionChecks elementAssignment) []
        (Buffer.ofList elementReports)).outcome = .error .cancelled ∧
      (settle (obligingHost.limit 5) Buffer.sink
        (OperatorTable.standard.expressionChecks elementAssignment) []
        (Buffer.ofList elementReports)).reports ≠ Buffer.ofList elementReports := by
  refine ⟨rfl, ?_⟩
  decide

end MethodOperators
