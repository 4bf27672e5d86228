import MethodOperators.Dictionary

/-!
# Operator tables

A table tells which method an operator stands for. Binary operators, operators before an operand
and comparisons are looked up by their token. Reading and writing an element of a container each
have a list of method names that are tried in order, and one method name stands for conversions.
-/

namespace MethodOperators

/-- The parts of a table that are looked up by token. -/
inductive TokenSection where
  | binary
  | unary
  | comparison
  deriving DecidableEq, Repr

/-- The parts of a table that are lists of names to try. -/
inductive CandidateList where
  | indexGet
  | indexSet
  deriving DecidableEq, Repr

/-- Which methods operators stand for. -/
structure OperatorTable where
  /-- Methods of operators between two operands. -/
  binary : Dictionary String String
  unary : Dictionary String String
  comparison : Dictionary String String
  /-- Methods that read an element, in the order in which they are tried. -/
  indexGet : List String
  /-- Methods that write an element, in the order in which they are tried. -/
  indexSet : List String
  /-- The method that converts a value to a type. -/
  valueOf : String

namespace OperatorTable

/-- The table in use unless another one is given. -/
def standard : OperatorTable where
  binary := .ofList
    [("+", "add"), ("-", "subtract"), ("*", "multiply"), ("/", "divide"), ("%", "remainder"),
      ("&", "and"), ("|", "or"), ("^", "xor"), ("<<", "shiftLeft"), (">>", "shiftRight"),
      (">>>", "shiftRightUnsigned")]
  unary := .ofList
    [("++", "increment"), ("--", "decrement"), ("-", "negate"), ("+", "plus"), ("~", "not"),
      ("!", "not")]
  comparison := .ofList
    [("<", "compareTo"), (">", "compareTo"), ("<=", "compareTo"), (">=", "compareTo")]
  indexGet := ["get"]
  indexSet := ["set", "put"]
  valueOf := "valueOf"

instance : Inhabited OperatorTable := ⟨standard⟩

/-- The methods of a section. -/
def tokens (t : OperatorTable) : TokenSection → Dictionary String String
  | .binary => t.binary
  | .unary => t.unary
  | .comparison => t.comparison

/-- The names to try of a list. -/
def names (t : OperatorTable) : CandidateList → List String
  | .indexGet => t.indexGet
  | .indexSet => t.indexSet

/-- The method of a token in a section. -/
def name? (t : OperatorTable) (part : TokenSection) (token : String) : Option String :=
  (t.tokens part).find? token

/-- The method of a token between two operands. -/
def binaryName? (t : OperatorTable) (token : String) : Option String := t.name? .binary token

/-- The method of a token before an operand. -/
def unaryName? (t : OperatorTable) (token : String) : Option String := t.name? .unary token

/-- The method of a comparison. -/
def comparisonName? (t : OperatorTable) (token : String) : Option String := t.name? .comparison token

/-- Whether a token is a comparison. -/
def isComparison (t : OperatorTable) (token : String) : Bool := t.comparison.contains token

/-- Two tables are the same when all look-ups in them are. -/
instance : BEq OperatorTable where
  beq s t :=
    s.binary.agrees t.binary && s.unary.agrees t.unary && s.comparison.agrees t.comparison &&
      s.indexGet == t.indexGet && s.indexSet == t.indexSet && s.valueOf == t.valueOf

end OperatorTable

end MethodOperators
