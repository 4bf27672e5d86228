import MethodOperators.Span

/-!
# Diagnostics

What a checker reports about a source text. Reports are collected in a buffer, in which the newest
one can be taken back if it is an error. Whoever takes back errors needs little of the place where
they are collected, and that little is a `Sink`.
-/

namespace MethodOperators

/-- How grave a report is. -/
inductive Severity where
  | error
  | warning
  | info
  deriving DecidableEq, Repr

/-- The word for a severity in a report. -/
def Severity.label : Severity → String
  | error => "error"
  | warning => "warning"
  | info => "info"

/-- A report about a range of a source text. -/
structure Diagnostic where
  severity : Severity
  message : String
  /-- The file or section it belongs to, if it names one. -/
  origin : Option String := none
  /-- The range it is about. -/
  span : Span
  deriving DecidableEq, Repr

namespace Diagnostic

/-- Whether a report is an error. -/
def isError (d : Diagnostic) : Bool := d.severity == .error

/-- A report on one line: where it is from, its range, its severity and what it says. -/
def render (d : Diagnostic) : String :=
  (match d.origin with
    | some origin => origin ++ ":"
    | none => "") ++ d.span.render ++ ": " ++ d.severity.label ++ ": " ++ d.message

end Diagnostic

/-- Reports in the order in which they were made. -/
structure Buffer where
  /-- The reports, oldest first. -/
  diagnostics : Array Diagnostic
  /-- The running count of errors. -/
  errorCount : Nat
  deriving DecidableEq, Repr

namespace Buffer

/-- No reports. -/
def empty : Buffer := ⟨#[], 0⟩

instance : Inhabited Buffer := ⟨empty⟩

/-- Adds a report. -/
def add (b : Buffer) (d : Diagnostic) : Buffer :=
  ⟨b.diagnostics.push d, if d.isError then b.errorCount + 1 else b.errorCount⟩

/-- Adds reports in order. -/
def extend (b : Buffer) (ds : List Diagnostic) : Buffer := ds.foldl add b

/-- The buffer of a list of reports. -/
def ofList (ds : List Diagnostic) : Buffer := empty.extend ds

/-- Drops all reports. -/
def clear (_ : Buffer) : Buffer := empty

/-- The reports, oldest first. -/
def toList (b : Buffer) : List Diagnostic := b.diagnostics.toList

/-- The errors among the reports, oldest first. -/
def errors (b : Buffer) : List Diagnostic := b.toList.filter Diagnostic.isError

/-- Number of reports. -/
def count (b : Buffer) : Nat := b.diagnostics.size

/-- Whether there are no reports. -/
def isEmpty (b : Buffer) : Bool := b.diagnostics.isEmpty

/-- Whether there are errors, by the running count. -/
def hasErrors (b : Buffer) : Bool := decide (0 < b.errorCount)

/-- The newest report. -/
def last? (b : Buffer) : Option Diagnostic := b.diagnostics.back?

/-- Takes back the newest report if it is an error, and tells which one it was. -/
def retract (b : Buffer) : Option Diagnostic × Buffer :=
  match b.last? with
  | some d => if d.isError then (some d, ⟨b.diagnostics.pop, b.errorCount - 1⟩) else (none, b)
  | none => (none, b)

end Buffer

/-- What can be seen of a collection `σ` of reports, and taken back from it. -/
structure Sink (σ : Type) where
  last? : σ → Option Diagnostic
  errorCount : σ → Nat
  /-- Takes back the newest report if it is an error, and tells which one it was. -/
  retract : σ → Option Diagnostic × σ

/-- Whether the newest report is an error with exactly the range `span`. A collection that counts no
errors is not looked at. -/
def Sink.newestIsErrorAt {σ : Type} (sink : Sink σ) (reports : σ) (span : Span) : Bool :=
  sink.errorCount reports != 0 &&
    (sink.last? reports).any fun d => d.isError && decide (d.span = span)

/-- A buffer as a sink. -/
def Buffer.sink : Sink Buffer where
  last? := Buffer.last?
  errorCount := Buffer.errorCount
  retract := Buffer.retract

end MethodOperators
