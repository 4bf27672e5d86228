import MethodOperators.Document.Reader

/-!
# Words and texts

The smallest parts of a configuration document: blanks, ends of lines, comments, names, and quoted
texts. A quoted text is written in one of four ways. Between single quotes every character stands
for itself; between double quotes a backslash introduces an escape. Between tripled quotes a text
may go over several lines, and a line break right after the opening quotes does not count.
-/

namespace MethodOperators.Document

open Reader

/-- Tabs and all characters that are not control characters of ASCII. -/
def isPlain (c : Char) : Bool := c == '\t' || (decide (' ' ≤ c) && c != '\x7f')

/-- Spaces and tabs. -/
def isBlank (c : Char) : Bool := c == ' ' || c == '\t'

/-- The characters of a name that is not quoted. -/
def isBare (c : Char) : Bool := c.isAlphanum || c == '_' || c == '-'

/-- Blanks in any number. -/
def blanks : Reader Unit := do
  let _ ← takeWhile isBlank

/-- The end of a line, in one of its two spellings. -/
def newline : Reader Unit := char '\n' <|> chars ['\r', '\n']

/-- A comment, up to the end of its line. -/
def comment : Reader Unit := do
  char '#'
  let _ ← takeWhile isPlain

/-- Blanks, line breaks and comments in any number. -/
def gap : Reader Unit := do
  blanks
  let _ ← many (do
    let _ ← optional comment
    newline
    blanks)

/-- The value of a hexadecimal digit. -/
def hexValue? (c : Char) : Option Nat :=
  if c.isDigit then some (c.toNat - '0'.toNat)
  else if decide ('a' ≤ c) && decide (c ≤ 'f') then some (c.toNat - 'a'.toNat + 10)
  else if decide ('A' ≤ c) && decide (c ≤ 'F') then some (c.toNat - 'A'.toNat + 10)
  else none

/-- A hexadecimal digit. -/
def hexDigit : Reader Nat := do
  let c ← satisfy (fun _ => true)
  match hexValue? c with
  | some value => return value
  | none => failure

/-- The character whose code is written with a given number of hexadecimal digits. -/
def codePoint (digits : Nat) : Reader Char := do
  let values ← times hexDigit digits
  let code := values.foldl (fun code value => 16 * code + value) 0
  if code.isValidChar then return Char.ofNat code else failure

/-- An escape: a backslash with what it introduces. -/
def escape : Reader Char := do
  char '\\'
  let c ← satisfy (fun _ => true)
  match c with
  | 'b' => return '\x08'
  | 't' => return '\t'
  | 'n' => return '\n'
  | 'f' => return '\x0c'
  | 'r' => return '\r'
  | '\"' => return '\"'
  | '\\' => return '\\'
  | 'u' => codePoint 4
  | 'U' => codePoint 8
  | _ => failure

/-- A text between double quotes, on one line. -/
def basicText : Reader (List Char) := do
  char '\"'
  let cs ← many (satisfy (fun c => isPlain c && c != '\"' && c != '\\') <|> escape)
  char '\"'
  return cs

/-- A text between single quotes, on one line. -/
def literalText : Reader (List Char) := do
  char '\''
  let cs ← takeWhile (fun c => isPlain c && c != '\'')
  char '\''
  return cs

/-- One or two quotes in the middle of a text between tripled quotes. -/
def innerQuotes (quote : Char) : Reader (List Char) := do
  let quotes ← takeWhile (fun c => c == quote)
  if 1 ≤ quotes.length ∧ quotes.length ≤ 2 then return quotes else failure

/-- Tripled quotes that close a text. One or two quotes before them belong to the text. -/
def closingQuotes (quote : Char) : Reader (List Char) := do
  let quotes ← takeWhile (fun c => c == quote)
  if 3 ≤ quotes.length ∧ quotes.length ≤ 5 then return quotes.drop 3 else failure

/-- A text between tripled quotes, made of pieces of its own kind, line breaks and quotes. -/
def longText (quote : Char) (piece : Reader (List Char)) : Reader (List Char) := do
  chars [quote, quote, quote]
  let _ ← optional newline
  let pieces ← many (piece <|> (do newline; return ['\n']) <|> innerQuotes quote)
  let quotes ← closingQuotes quote
  return pieces.flatten ++ quotes

/-- A backslash at the end of a line, with all blanks and line breaks that follow. -/
def lineContinuation : Reader (List Char) := do
  char '\\'
  blanks
  newline
  let _ ← many ((do let _ ← satisfy isBlank) <|> newline)
  return []

/-- A text between tripled double quotes. -/
def longBasicText : Reader (List Char) :=
  longText '\"' <|
    (do return [← satisfy (fun c => isPlain c && c != '\"' && c != '\\')]) <|>
      lineContinuation <|> (do return [← escape])

/-- A text between tripled single quotes. -/
def longLiteralText : Reader (List Char) :=
  longText '\'' (do return [← satisfy (fun c => isPlain c && c != '\'')])

/-- A quoted text. -/
def text : Reader String := do
  let cs ← longBasicText <|> basicText <|> longLiteralText <|> literalText
  return String.ofList cs

/-- A name that is not quoted. -/
def bareKey : Reader (List Char) := do
  let cs ← takeWhile isBare
  if cs.isEmpty then failure else return cs

/-- A name, bare or quoted on one line. -/
def key : Reader String := do
  let cs ← basicText <|> literalText <|> bareKey
  return String.ofList cs

end MethodOperators.Document
