import MethodOperators.Operator.Call
import MethodOperators.Registry.Host

/-! Operations on expressions look for gaps before they do anything else. This is never more than
what the calls that they are made of would do on the types alone. -/

namespace MethodOperators

variable {S : TypeSystem}

/-- Runs inquiries one after the other, each one after all that was asked before. The first that
resolves or is called off ends it, and its outcome counts. -/
def tryInTurn (host : Host S) : (asked : List (Question S)) → List (Inquiry S (Resolution S.Ty)) →
    Transcript S (Resolution S.Ty)
  | asked, [] => ⟨asked, .ok .unresolved⟩
  | asked, m :: ms =>
    match m.run host asked with
    | ⟨asked', .ok .unresolved⟩ => tryInTurn host asked' ms
    | ended => ended

/-! ### Gaps -/

theorem resolve_of_missing {receiver : Option S.Ty} {args : List (Option S.Ty)}
    (h : receiver = none ∨ none ∈ args) (name : String) :
    resolve receiver name args = pure .unresolved := by
  rcases h with rfl | hargs
  · rfl
  · have hnone := allKnown_eq_none_iff.2 hargs
    cases receiver <;> simp [resolve, hnone]

theorem tryInTurn_of_missing {receiver : Option S.Ty} {args : List (Option S.Ty)}
    (h : receiver = none ∨ none ∈ args) (host : Host S) (asked : List (Question S))
    (names : List String) :
    tryInTurn host asked (names.map fun name => resolve receiver name args) =
      ⟨asked, .ok .unresolved⟩ := by
  induction names with
  | nil => rfl
  | cons name names ih =>
    rw [List.map_cons, resolve_of_missing h]
    exact ih

/-- Looking for gaps among expressions first leaves out only what would come to nothing. -/
theorem resolveExprs_eq (receiver : Option (Expr S.Ty)) (name : String)
    (args : List (Option (Expr S.Ty))) :
    resolveExprs receiver name args =
      resolve (receiver.bind Expr.ty) name (args.map fun arg => arg.bind Expr.ty) := by
  unfold resolveExprs
  split
  · rename_i ty tys hreceiver hargs
    rw [hreceiver, allKnown_eq_some_iff.1 hargs]
  · rename_i hgap
    refine (resolve_of_missing ?_ name).symm
    cases hreceiver : receiver.bind Expr.ty with
    | none => exact .inl rfl
    | some ty =>
      cases hargs : allKnown (args.map fun arg => arg.bind Expr.ty) with
      | none => exact .inr (allKnown_eq_none_iff.1 hargs)
      | some tys => exact (hgap ty tys hreceiver hargs).elim

namespace OperatorTable

/-! ### Several names -/

theorem run_firstResolved (host : Host S) (asked : List (Question S)) (receiver : S.Ty)
    (args : List S.Ty) (names : List String) :
    (firstResolved receiver args names).run host asked =
      tryInTurn host asked
        (names.map fun name => resolve (some receiver) name (args.map some)) := by
  induction names generalizing asked with
  | nil => rfl
  | cons name names ih =>
    rw [List.map_cons, tryInTurn, firstResolved_cons, Inquiry.run_bind]
    obtain ⟨asked', outcome⟩ := (resolve (some receiver) name (args.map some)).run host asked
    cases outcome with
    | error e => rfl
    | ok found =>
      cases found with
      | resolved ty => rfl
      | unresolved => exact ih asked'

variable (t : OperatorTable) (host : Host S) (asked : List (Question S))

theorem run_resolveRead (container index : Option (Expr S.Ty)) :
    (t.resolveRead container index).run host asked =
      tryInTurn host asked (t.indexGet.map fun name =>
        resolve (container.bind Expr.ty) name [index.bind Expr.ty]) := by
  unfold resolveRead readCalls
  cases container.bind Expr.ty with
  | none => exact (tryInTurn_of_missing (.inl rfl) host asked _).symm
  | some container =>
    cases index.bind Expr.ty with
    | none => exact (tryInTurn_of_missing (.inr (by simp)) host asked _).symm
    | some index => exact run_firstResolved host asked container [index] t.indexGet

theorem run_resolveWrite (container index value : Option (Expr S.Ty)) :
    (t.resolveWrite container index value).run host asked =
      tryInTurn host asked (t.indexSet.map fun name =>
        resolve (container.bind Expr.ty) name [index.bind Expr.ty, value.bind Expr.ty]) := by
  unfold resolveWrite writeCalls
  cases container.bind Expr.ty with
  | none => exact (tryInTurn_of_missing (.inl rfl) host asked _).symm
  | some container =>
    cases index.bind Expr.ty with
    | none => exact (tryInTurn_of_missing (.inr (by simp)) host asked _).symm
    | some index =>
      cases value.bind Expr.ty with
      | none => exact (tryInTurn_of_missing (.inr (by simp)) host asked _).symm
      | some value => exact run_firstResolved host asked container [index, value] t.indexSet

/-! ### Conversions -/

theorem converts_eq (target : Option S.Ty) (source : Option (Expr S.Ty)) :
    t.converts target source =
      Resolution.isResolved <$> resolve target t.valueOf [source.bind Expr.ty] := by
  unfold converts conversionCalls
  cases source.bind Expr.ty with
  | some source => rw [Calls.toInquiry_bind, Calls.toInquiry_call, map_eq_pure_bind]; rfl
  | none =>
    rw [resolve_of_missing (.inr (by simp))]
    rfl

theorem outcome_converts_iff (target : Option S.Ty) (source : Option (Expr S.Ty)) :
    ((t.converts target source).run host asked).outcome = .ok true ↔
      ∃ ty, ((resolve target t.valueOf [source.bind Expr.ty]).run host asked).outcome =
        .ok (.resolved ty) := by
  rw [converts_eq, Inquiry.run_map]
  cases ((resolve target t.valueOf [source.bind Expr.ty]).run host asked).outcome with
  | error e => simp [Except.map]
  | ok found => cases found <;> simp [Except.map, Resolution.isResolved]

/-! ### All operations -/

/-- Against every host, a call on expressions runs as the call on their types. Reading and writing
an element run as the calls by each of the names in turn, up to the first that resolves or is called
off, and a conversion runs as the call by its name and holds just when that resolves. Where an
expression or a type that is needed is missing, no question is asked, whatever the host would
say. -/
theorem expressions_resolve_as_types :
    (∀ (receiver : Option (Expr S.Ty)) (name : String) (args : List (Option (Expr S.Ty))),
      (resolveExprs receiver name args).run host asked =
        (resolve (receiver.bind Expr.ty) name (args.map fun arg => arg.bind Expr.ty)).run host
          asked) ∧
    (∀ container index : Option (Expr S.Ty),
      (t.resolveRead container index).run host asked =
        tryInTurn host asked (t.indexGet.map fun name =>
          resolve (container.bind Expr.ty) name [index.bind Expr.ty])) ∧
    (∀ container index value : Option (Expr S.Ty),
      (t.resolveWrite container index value).run host asked =
        tryInTurn host asked (t.indexSet.map fun name =>
          resolve (container.bind Expr.ty) name [index.bind Expr.ty, value.bind Expr.ty])) ∧
    (∀ (target : Option S.Ty) (source : Option (Expr S.Ty)),
      ((t.converts target source).run host asked).asked =
        ((resolve target t.valueOf [source.bind Expr.ty]).run host asked).asked ∧
      ((t.converts target source).run host asked).outcome =
        ((resolve target t.valueOf [source.bind Expr.ty]).run host asked).outcome.map
          Resolution.isResolved ∧
      (((t.converts target source).run host asked).outcome = .ok true ↔
        ∃ ty, ((resolve target t.valueOf [source.bind Expr.ty]).run host asked).outcome =
          .ok (.resolved ty))) ∧
    (∀ (receiver : Option (Expr S.Ty)) (name : String) (args : List (Option (Expr S.Ty))),
      receiver.bind Expr.ty = none ∨ (∃ arg ∈ args, arg.bind Expr.ty = none) →
      (resolveExprs receiver name args).run host asked = ⟨asked, .ok .unresolved⟩) ∧
    (∀ container index : Option (Expr S.Ty),
      container.bind Expr.ty = none ∨ index.bind Expr.ty = none →
      (t.resolveRead container index).run host asked = ⟨asked, .ok .unresolved⟩) ∧
    (∀ container index value : Option (Expr S.Ty),
      container.bind Expr.ty = none ∨ index.bind Expr.ty = none ∨ value.bind Expr.ty = none →
      (t.resolveWrite container index value).run host asked = ⟨asked, .ok .unresolved⟩) ∧
    (∀ (target : Option S.Ty) (source : Option (Expr S.Ty)),
      target = none ∨ source.bind Expr.ty = none →
      (t.converts target source).run host asked = ⟨asked, .ok false⟩) := by
  refine ⟨fun receiver name args => ?_, t.run_resolveRead host asked, t.run_resolveWrite host asked,
    fun target source => ⟨?_, ?_, t.outcome_converts_iff host asked target source⟩,
    fun receiver name args hgap => ?_, fun container index hgap => ?_,
    fun container index value hgap => ?_, fun target source hgap => ?_⟩
  · rw [resolveExprs_eq]
  · rw [converts_eq, Inquiry.run_map]
  · rw [converts_eq, Inquiry.run_map]
  · rw [resolveExprs_eq, resolve_of_missing (by simpa using hgap)]
    rfl
  · rw [run_resolveRead]
    exact tryInTurn_of_missing (by simpa [eq_comm] using hgap) host asked t.indexGet
  · rw [run_resolveWrite]
    exact tryInTurn_of_missing (by simpa [eq_comm] using hgap) host asked t.indexSet
  · rw [converts_eq, resolve_of_missing (by simpa [eq_comm] using hgap)]
    rfl

/-- A registry whose flag is raised. Writing an element without an index and converting a missing
value come to nothing and ask nothing. Reading an element of which all is known is called off at its
first question. -/
theorem expressions_resolve_as_types_raised :
    let flags := Flags.empty.fresh.2.cancel Flags.empty.fresh.1
    let host := (Registry.empty Flags.empty.fresh.1).host flags
    let operand : Option (Expr Ty) := some (.leaf (some (.simple ⟨1⟩)) .zero)
    flags.isRaised Flags.empty.fresh.1 = true ∧
      (standard.resolveWrite (S := classTypes) operand none operand).run host [] =
        ⟨[], .ok .unresolved⟩ ∧
      (standard.converts (S := classTypes) (some (.simple ⟨1⟩)) none).run host [] =
        ⟨[], .ok false⟩ ∧
      (standard.resolveRead (S := classTypes) operand operand).run host [] =
        ⟨[.declaration (.simple ⟨1⟩)], .error .cancelled⟩ := by
  intro flags host operand
  obtain ⟨-, hread, -, -, -, -, hwrite, hconverts⟩ :=
    expressions_resolve_as_types (S := classTypes) standard host []
  exact ⟨rfl, hwrite operand none operand (.inr (.inl rfl)),
    hconverts (some (.simple ⟨1⟩)) none (.inr rfl), hread operand operand⟩

end OperatorTable

end MethodOperators
