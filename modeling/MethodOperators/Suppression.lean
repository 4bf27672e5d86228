import MethodOperators.Diagnostic
import MethodOperators.Operator.Call

/-!
# Taking back errors

A checker that knows nothing of operator methods reports an error for an expression that uses one.
Right after the checker has looked at an expression, the newest report is inspected: if it is an
error about just this expression, and a method makes the expression legal, the error is taken back.

For each shape of expression there are a range in which the checker reports, and a condition under
which the expression is legal:

| Shape | Range | Legal when |
|---|---|---|
| chain | the chain | it resolves, as a comparison or as a chain of binary operators |
| operator before an operand | the expression | it resolves |
| access to an element | the container | reading the element resolves |
| assignment to an element | the target | writing the element resolves |
| assignment | the assignment | the value converts to the type of the target |
| variable | from its type to its end | the initial value converts to the type |

Only plain assignments are looked at. An assignment to an element is looked at twice, once for each
of its ranges.
-/

namespace MethodOperators

/-- A range in which a checker may have reported an error, and what makes the error void. -/
structure Check (S : TypeSystem) where
  span : Span
  /-- Whether the code in question is legal. -/
  legal : Inquiry S Bool

namespace OperatorTable

variable {S : TypeSystem}

/-- What a chain of operators resolves to. Two operands with a comparison between them are compared;
all other chains are read from the left. -/
def resolveOperators (t : OperatorTable) (operands : List (Expr S.Ty)) (tokens : List String) :
    Inquiry S (Resolution S.Ty) :=
  let asBinary := t.resolveChain (operands.map Expr.ty) tokens
  match operands, tokens with
  | [lhs, rhs], [token] =>
    if t.isComparison token then t.resolveComparison lhs.ty rhs.ty token else asBinary
  | _, _ => asBinary

/-- The check of a chain of operators. -/
def chainChecks (t : OperatorTable) (e : Expr S.Ty) : List (Check S) :=
  match e.shape with
  | .chain operands tokens => [⟨e.span, Resolution.isResolved <$> t.resolveOperators operands tokens⟩]
  | _ => []

/-- The check of an operator before an operand. -/
def unaryChecks (t : OperatorTable) (e : Expr S.Ty) : List (Check S) :=
  match e.shape with
  | .unary token operand =>
    [⟨e.span, Resolution.isResolved <$> t.resolveUnary (operand.bind Expr.ty) token⟩]
  | _ => []

/-- The check of an access to an element. -/
def indexChecks (t : OperatorTable) (e : Expr S.Ty) : List (Check S) :=
  match e.shape with
  | .index container index =>
    [⟨container.span, Resolution.isResolved <$> t.resolveRead (some container) index⟩]
  | _ => []

/-- The check of the target of an assignment, which there is if the target is an element. -/
def storeChecks (t : OperatorTable) (target : Expr S.Ty) (value : Option (Expr S.Ty)) :
    List (Check S) :=
  match target.shape with
  | .index container index =>
    [⟨target.span, Resolution.isResolved <$> t.resolveWrite (some container) index value⟩]
  | _ => []

/-- The checks of an assignment: its target, and then the assignment itself. -/
def assignmentChecks (t : OperatorTable) (e : Expr S.Ty) : List (Check S) :=
  match e.shape with
  | .assign token target value =>
    if token = "=" then
      t.storeChecks target value ++ [⟨e.span, t.converts target.ty value⟩]
    else []
  | _ => []

/-- The checks of an expression, by its shape. -/
def expressionChecks (t : OperatorTable) (e : Expr S.Ty) : List (Check S) :=
  match e.shape with
  | .chain .. => t.chainChecks e
  | .unary .. => t.unaryChecks e
  | .index .. => t.indexChecks e
  | .assign .. => t.assignmentChecks e
  | .leaf => []

/-- The check of a variable, which there is if it has an initial value. -/
def variableChecks (t : OperatorTable) (v : VarDecl S.Ty) : List (Check S) :=
  match v.init with
  | some init => [⟨v.flaggedSpan, t.converts v.ty (some init)⟩]
  | none => []

end OperatorTable

/-- What became of some checks. -/
structure Settlement (S : TypeSystem) (σ : Type) where
  /-- The questions that were asked, in order. -/
  asked : List (Question S)
  /-- The reports that are left. -/
  reports : σ
  /-- Whether an error was taken back, unless the host called off the checks. -/
  outcome : Except Cancelled Bool

/-- Runs checks one after the other, after some questions have been asked already. A check whose
range is not flagged asks nothing. Errors that were taken back before the host called off a check
stay taken back. -/
def settle {S : TypeSystem} {σ : Type} (host : Host S) (sink : Sink σ) :
    (checks : List (Check S)) → (asked : List (Question S)) → (reports : σ) → Settlement S σ
  | [], asked, reports => ⟨asked, reports, .ok false⟩
  | check :: checks, asked, reports =>
    if sink.newestIsErrorAt reports check.span then
      let transcript := check.legal.run host asked
      match transcript.outcome with
      | .error e => ⟨transcript.asked, reports, .error e⟩
      | .ok false => settle host sink checks transcript.asked reports
      | .ok true =>
        let (retracted, reports) := sink.retract reports
        let rest := settle host sink checks transcript.asked reports
        { rest with outcome := rest.outcome.map (retracted.isSome || ·) }
    else settle host sink checks asked reports

end MethodOperators
