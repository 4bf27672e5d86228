import MethodOperators.Operator.Table

/-!
# Operator configurations

A configuration changes a table. It gives names for tokens, section by section, and may replace the
lists of names for elements and the name for conversions. Either it is laid over the tokens of the
table, or the tokens of the table are dropped first; the rest of the table stays in both cases.

A configuration with an empty token or an empty name is refused. Of several faults the first counts,
in the order of the sections and within a section in the order of the tokens.
-/

namespace MethodOperators

/-- The name of a section in a configuration. -/
def TokenSection.name : TokenSection → String
  | binary => "binary"
  | unary => "unary"
  | comparison => "comparison"

/-- The name of a list in a configuration. -/
def CandidateList.name : CandidateList → String
  | indexGet => "index_get"
  | indexSet => "index_set"

/-- Why a configuration is refused. -/
inductive ConfigError where
  /-- The text is not a configuration. -/
  | malformed
  /-- A section has an entry for the empty token. -/
  | emptyToken (part : TokenSection)
  /-- A section has an empty name for a token. -/
  | emptyMethodName (part : TokenSection) (token : String)
  /-- A list of names is empty, or one of its names is. -/
  | invalidCandidates (list : CandidateList)
  | emptyValueOf
  deriving DecidableEq, Repr

/-- The text of a refusal. -/
def ConfigError.message : ConfigError → String
  | malformed => "invalid operator configuration"
  | emptyToken part => "empty operator token in [" ++ part.name ++ "]"
  | emptyMethodName part token =>
    "operator '" ++ token ++ "' in [" ++ part.name ++ "] maps to an empty method name"
  | invalidCandidates list => "'" ++ list.name ++ "' must list at least one non-empty method name"
  | emptyValueOf => "'value_of' must not be empty"

/-- Changes to an operator table. -/
structure Config where
  /-- Keep the tokens of the table. -/
  inheritDefaults : Bool := true
  /-- Names for operators between two operands. -/
  binary : Dictionary String String := .empty
  unary : Dictionary String String := .empty
  comparison : Dictionary String String := .empty
  /-- Names of methods that read an element. -/
  indexGet : Option (List String) := none
  indexSet : Option (List String) := none
  valueOf : Option String := none

namespace Config

instance : Inhabited Config := ⟨{}⟩

/-- The names that a configuration gives in a section. -/
def tokens (c : Config) : TokenSection → Dictionary String String
  | .binary => c.binary
  | .unary => c.unary
  | .comparison => c.comparison

/-- The names to try that a configuration gives. -/
def names? (c : Config) : CandidateList → Option (List String)
  | .indexGet => c.indexGet
  | .indexSet => c.indexSet

/-- Adds the entries of a section to a table, one after the other. -/
def addEntries (part : TokenSection) :
    (entries : List (String × String)) → (table : Dictionary String String) →
      Except ConfigError (Dictionary String String)
  | [], table => .ok table
  | (token, name) :: rest, table =>
    if token.isEmpty then .error (.emptyToken part)
    else if name.isEmpty then .error (.emptyMethodName part token)
    else addEntries part rest (table.insert token name)

/-- Adds a section to a table, its tokens in increasing order. -/
def addSection (part : TokenSection) (entries table : Dictionary String String) :
    Except ConfigError (Dictionary String String) :=
  addEntries part entries.inOrder table

/-- The names to try: those of the configuration if it has any, else those of the table. -/
def candidates (list : CandidateList) (names : Option (List String)) (inTable : List String) :
    Except ConfigError (List String) :=
  match names with
  | none => .ok inTable
  | some names =>
    if names.isEmpty || names.any String.isEmpty then .error (.invalidCandidates list)
    else .ok names

/-- The name for conversions: that of the configuration if it has one, else that of the table. -/
def conversion (name : Option String) (inTable : String) : Except ConfigError String :=
  match name with
  | none => .ok inTable
  | some name => if name.isEmpty then .error .emptyValueOf else .ok name

end Config

/-- The table with the changes of a configuration made. -/
def OperatorTable.configure (t : OperatorTable) (c : Config) : Except ConfigError OperatorTable := do
  let base (tokens : Dictionary String String) := if c.inheritDefaults then tokens else .empty
  let binary ← Config.addSection .binary c.binary (base t.binary)
  let unary ← Config.addSection .unary c.unary (base t.unary)
  let comparison ← Config.addSection .comparison c.comparison (base t.comparison)
  let indexGet ← Config.candidates .indexGet c.indexGet t.indexGet
  let indexSet ← Config.candidates .indexSet c.indexSet t.indexSet
  let valueOf ← Config.conversion c.valueOf t.valueOf
  return { binary, unary, comparison, indexGet, indexSet, valueOf }

/-- The standard table with the changes of a configuration made. -/
def Config.toTable (c : Config) : Except ConfigError OperatorTable := OperatorTable.standard.configure c

end MethodOperators
