/-!
# Readers

A reader takes a piece from the front of a text and leaves the rest, or fails and leaves all of it.
Readers are put together in sequence and by alternatives; the second of two alternatives is tried
where the first one fails.
-/

namespace MethodOperators.Document

/-- Takes a piece from the front of a text. -/
abbrev Reader (α : Type) : Type := StateT (List Char) Option α

namespace Reader

variable {α : Type}

/-- One character of a class. -/
def satisfy (p : Char → Bool) : Reader Char := fun s =>
  match s with
  | c :: rest => if p c then some (c, rest) else none
  | [] => none

/-- The longest run of characters of a class, which may be empty. -/
def takeWhile (p : Char → Bool) : Reader (List Char) := fun s => some (s.span p)

/-- A given character. -/
def char (c : Char) : Reader Unit := do
  let _ ← satisfy (fun d => d == c)

/-- Given characters in a row. -/
def chars : List Char → Reader Unit
  | [] => pure ()
  | c :: cs => do
    char c
    chars cs

/-- Nothing, at the end of the text. -/
def endOfText : Reader Unit := fun s => if s.isEmpty then some ((), s) else none

/-- Reads at most `fuel` pieces, and gives them after those already read, which come last first. -/
def manyFrom (p : Reader α) : (fuel : Nat) → (read : List α) → List Char → List α × List Char
  | 0, read, s => (read.reverse, s)
  | fuel + 1, read, s =>
    match p s with
    | some (a, rest) => manyFrom p fuel (a :: read) rest
    | none => (read.reverse, s)

/-- As many pieces as there are. Every piece takes a character at least, so there are no more of
them than characters. -/
def many (p : Reader α) : Reader (List α) := fun s => some (manyFrom p s.length [] s)

/-- A given number of pieces. -/
def times (p : Reader α) : Nat → Reader (List α)
  | 0 => pure []
  | n + 1 => do
    let a ← p
    let as ← times p n
    return a :: as

end Reader

end MethodOperators.Document
