import MethodOperators.Operator.Table
import MethodOperators.MethodCall

/-!
# Operators as method calls

What an operator expression means when the operator stands for a method: the call of that method on
the first operand, with the other operands as arguments. A chain of operators is read from the left.
An access to an element tries several method names in order, and the first that resolves counts.

Each operator is a dialogue whose requests are the method calls that it makes. The calls are resolved
by asking about types, which makes an inquiry of the operator.
-/

namespace MethodOperators

/-- A method call, of which some types may be unknown. -/
structure MethodCall (S : TypeSystem) where
  receiver : Option S.Ty
  name : String
  args : List (Option S.Ty)

/-- A computation that makes method calls. -/
abbrev Calls (S : TypeSystem) : Type → Type :=
  ExceptT Cancelled (Dialogue (MethodCall S) fun _ => Resolution S.Ty)

namespace Calls

variable {S : TypeSystem} {α β : Type}

/-- Calls a method. -/
def call (receiver : Option S.Ty) (name : String) (args : List (Option S.Ty)) :
    Calls S (Resolution S.Ty) :=
  ExceptT.mk (.ask ⟨receiver, name, args⟩ .done)

/-- Resolves each call when it is made. -/
def toInquiry (calls : Calls S α) : Inquiry S α :=
  ExceptT.mk <| (ExceptT.run calls).through fun c =>
    ExceptT.run (resolve c.receiver c.name c.args)

@[simp]
theorem toInquiry_call (receiver : Option S.Ty) (name : String) (args : List (Option S.Ty)) :
    (call receiver name args).toInquiry = resolve receiver name args :=
  Dialogue.bind_done _

@[simp]
theorem toInquiry_bind (calls : Calls S α) (f : α → Calls S β) :
    (calls >>= f).toInquiry = calls.toInquiry >>= fun a => (f a).toInquiry := by
  refine (Dialogue.through_bind _ (ExceptT.run calls) (ExceptT.bindCont f)).trans ?_
  refine bind_congr fun reply => ?_
  cases reply <;> rfl

end Calls

namespace OperatorTable

variable {S : TypeSystem}

/-! ### The calls of each operator -/

/-- The call of a method that may have no name. -/
def namedCall (name? : Option String) (receiver : Option S.Ty) (args : List (Option S.Ty)) :
    Calls S (Resolution S.Ty) :=
  match name? with
  | some name => .call receiver name args
  | none => return .unresolved

/-- One binary operator: `lhs token rhs`. -/
def binaryCalls (t : OperatorTable) (lhs rhs : Option S.Ty) (token : String) :
    Calls S (Resolution S.Ty) :=
  namedCall (t.binaryName? token) lhs [rhs]

/-- Reads a chain from the left, with the type of what has been read so far. A step that fails or
has no token leaves that type unknown, and the chain is read on. -/
def foldCalls (t : OperatorTable) :
    (read : Option S.Ty) → (operands : List (Option S.Ty)) → (tokens : List String) →
      Calls S (Option S.Ty)
  | read, [], _ => return read
  | _, _ :: operands, [] => foldCalls t none operands []
  | read, operand :: operands, token :: tokens => do
    let step ← t.binaryCalls read operand token
    foldCalls t step.toOption operands tokens

/-- A chain of binary operators. Token `i` stands between operands `i` and `i + 1`; tokens that are
left over do not count. Fewer than two operands make no chain. -/
def chainCalls (t : OperatorTable) (operands : List (Option S.Ty)) (tokens : List String) :
    Calls S (Resolution S.Ty) :=
  match operands with
  | [] => return .unresolved
  | [_] => return .unresolved
  | first :: rest => do return .ofOption (← t.foldCalls first rest tokens)

/-- A comparison: `lhs token rhs`. What the result of the method says about the comparison is left
to the checker. -/
def comparisonCalls (t : OperatorTable) (lhs rhs : Option S.Ty) (token : String) :
    Calls S (Resolution S.Ty) :=
  namedCall (t.comparisonName? token) lhs [rhs]

/-- An operator before an operand, which is a call without arguments. -/
def unaryCalls (t : OperatorTable) (operand : Option S.Ty) (token : String) :
    Calls S (Resolution S.Ty) :=
  namedCall (t.unaryName? token) operand []

/-- Calls by several method names, until one of them resolves. -/
def candidateCalls (receiver : S.Ty) (args : List S.Ty) :
    (names : List String) → Calls S (Resolution S.Ty)
  | [] => return .unresolved
  | name :: names => do
    match ← Calls.call (some receiver) name (args.map some) with
    | .resolved ty => return .resolved ty
    | .unresolved => candidateCalls receiver args names

/-- Reading an element: `container[index]`. -/
def readCalls (t : OperatorTable) (container index : Option (Expr S.Ty)) :
    Calls S (Resolution S.Ty) :=
  match container.bind Expr.ty, index.bind Expr.ty with
  | some container, some index => candidateCalls container [index] t.indexGet
  | _, _ => return .unresolved

/-- Writing an element: `container[index] = value`. -/
def writeCalls (t : OperatorTable) (container index value : Option (Expr S.Ty)) :
    Calls S (Resolution S.Ty) :=
  match container.bind Expr.ty, index.bind Expr.ty, value.bind Expr.ty with
  | some container, some index, some value => candidateCalls container [index, value] t.indexSet
  | _, _, _ => return .unresolved

/-- Whether a type has a conversion that takes the value of an expression. -/
def conversionCalls (t : OperatorTable) (target : Option S.Ty) (source : Option (Expr S.Ty)) :
    Calls S Bool :=
  match source.bind Expr.ty with
  | some source => do return (← Calls.call target t.valueOf [some source]).isResolved
  | none => return false

/-! ### The operators as inquiries -/

/-- One binary operator. -/
def resolveBinary (t : OperatorTable) (lhs rhs : Option S.Ty) (token : String) :
    Inquiry S (Resolution S.Ty) :=
  (t.binaryCalls lhs rhs token).toInquiry

/-- What a chain comes to from some point on, with the type of what has been read before. -/
def foldChain (t : OperatorTable) (read : Option S.Ty) (operands : List (Option S.Ty))
    (tokens : List String) : Inquiry S (Option S.Ty) :=
  (t.foldCalls read operands tokens).toInquiry

/-- A chain of binary operators. -/
def resolveChain (t : OperatorTable) (operands : List (Option S.Ty)) (tokens : List String) :
    Inquiry S (Resolution S.Ty) :=
  (t.chainCalls operands tokens).toInquiry

/-- A comparison. -/
def resolveComparison (t : OperatorTable) (lhs rhs : Option S.Ty) (token : String) :
    Inquiry S (Resolution S.Ty) :=
  (t.comparisonCalls lhs rhs token).toInquiry

/-- An operator before an operand. -/
def resolveUnary (t : OperatorTable) (operand : Option S.Ty) (token : String) :
    Inquiry S (Resolution S.Ty) :=
  (t.unaryCalls operand token).toInquiry

/-- The first of several method names for which a call resolves. -/
def firstResolved (receiver : S.Ty) (args : List S.Ty) (names : List String) :
    Inquiry S (Resolution S.Ty) :=
  (candidateCalls receiver args names).toInquiry

/-- Reading an element. -/
def resolveRead (t : OperatorTable) (container index : Option (Expr S.Ty)) :
    Inquiry S (Resolution S.Ty) :=
  (t.readCalls container index).toInquiry

/-- Writing an element. -/
def resolveWrite (t : OperatorTable) (container index value : Option (Expr S.Ty)) :
    Inquiry S (Resolution S.Ty) :=
  (t.writeCalls container index value).toInquiry

/-- Whether the value of an expression converts to a type. -/
def converts (t : OperatorTable) (target : Option S.Ty) (source : Option (Expr S.Ty)) :
    Inquiry S Bool :=
  (t.conversionCalls target source).toInquiry

theorem foldChain_cons (t : OperatorTable) (read operand : Option S.Ty)
    (operands : List (Option S.Ty)) (token : String) (tokens : List String) :
    t.foldChain read (operand :: operands) (token :: tokens) =
      t.resolveBinary read operand token >>= fun step =>
        t.foldChain step.toOption operands tokens :=
  Calls.toInquiry_bind _ _

theorem resolveChain_cons_cons (t : OperatorTable) (first second : Option S.Ty)
    (rest : List (Option S.Ty)) (tokens : List String) :
    t.resolveChain (first :: second :: rest) tokens =
      t.foldChain first (second :: rest) tokens >>= fun read => pure (.ofOption read) :=
  Calls.toInquiry_bind _ _

theorem firstResolved_cons (receiver : S.Ty) (args : List S.Ty) (name : String)
    (names : List String) :
    firstResolved receiver args (name :: names) =
      resolve (some receiver) name (args.map some) >>= fun found =>
        match found with
        | .resolved ty => pure (.resolved ty)
        | .unresolved => firstResolved receiver args names := by
  rw [firstResolved, candidateCalls, Calls.toInquiry_bind, Calls.toInquiry_call]
  refine bind_congr fun found => ?_
  cases found <;> rfl

end OperatorTable

end MethodOperators
