/-!
# Source spans

A span is a range of a source text, given by the offset of its first character and the offset
just past its last one. Nothing forces the two ends into order: a checker may hand over a span
that runs backwards, and such a span counts as empty.
-/

namespace MethodOperators

/-- A range of a source text, from `start` up to and excluding `stop`. -/
structure Span where
  /-- Offset of the first character. -/
  start : UInt32
  /-- Offset just past the last character. -/
  stop : UInt32
  deriving DecidableEq, Repr

namespace Span

/-- The span of nothing, at the start of the text. -/
def zero : Span := ⟨0, 0⟩

instance : Inhabited Span := ⟨zero⟩

/-- A span is empty when it ends where it starts or before. -/
def isEmpty (s : Span) : Bool := s.stop ≤ s.start

/-- Number of characters covered; a span that runs backwards covers none. -/
def length (s : Span) : UInt32 := if s.start ≤ s.stop then s.stop - s.start else 0

/-- The span from the start of `s` to the end of `t`. -/
def through (s t : Span) : Span := ⟨s.start, t.stop⟩

/-- `t` lies within `s`, the ends included. -/
def Contains (s t : Span) : Prop := s.start ≤ t.start ∧ t.stop ≤ s.stop

instance (s t : Span) : Decidable (s.Contains t) :=
  inferInstanceAs (Decidable (_ ∧ _))

/-- The two offsets with dots between, as in `1..5`. -/
def render (s : Span) : String :=
  s.start.toNat.repr ++ ".." ++ s.stop.toNat.repr

/-- The offsets together with what they are, as in `Span(1..5)`. -/
def describe (s : Span) : String := "Span(" ++ s.render ++ ")"

end Span

end MethodOperators
