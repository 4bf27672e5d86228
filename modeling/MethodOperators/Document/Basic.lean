import MethodOperators.Dictionary
import MethodOperators.Document.DateTime
import MethodOperators.Document.Text

/-!
# Configuration documents

A document is a list of settings, each with a name. It is written in the part of TOML that
configurations need: settings are texts, truth values, dates and times, lists of texts, and groups
of texts, which have names of their own. A group is written in braces, as a part of the document
under a heading, or entry by entry with the name of the group before a dot. Numbers, lists in lists
and groups in groups have no place in a configuration and are refused.

No name is used twice, and a group is written in one way only. A group in braces is complete as it
stands. A group under a heading takes all settings up to the next heading, and has one heading only.
A group that is written entry by entry may have other settings between its entries, as long as no
heading has come.
-/

namespace MethodOperators.Document

/-- How a group is written. -/
inductive GroupStyle where
  | braces
  | heading
  | dotted
  deriving DecidableEq, Repr

/-- The value of a setting. -/
inductive Setting where
  | flag (value : Bool)
  | text (value : String)
  /-- A date or a time. -/
  | moment (value : DateTime)
  | texts (values : List String)
  /-- Texts with names. -/
  | group (style : GroupStyle) (entries : Dictionary String String)

/-- What one line of a document says. -/
inductive Line where
  /-- Nothing. -/
  | blank
  /-- What follows is a group of this name. -/
  | heading (name : String)
  /-- A setting, or with two names an entry of a group. -/
  | setting (name : String) (entry : Option String) (value : Setting)

open Reader

/-- A truth value. -/
def flag : Reader Bool :=
  (do chars ['t', 'r', 'u', 'e']; return true) <|>
    (do chars ['f', 'a', 'l', 's', 'e']; return false)

/-- Texts in brackets, with commas between them and possibly one at the end. -/
def texts : Reader (List String) := do
  char '['
  gap
  let some first ← optional text | do char ']'; return []
  gap
  let rest ← many (do
    char ','
    gap
    let next ← text
    gap
    return next)
  let _ ← optional (do char ','; gap)
  char ']'
  return first :: rest

/-- An entry of a group in braces. -/
def entry : Reader (String × String) := do
  let name ← key
  blanks
  char '='
  blanks
  let value ← text
  blanks
  return (name, value)

/-- Adds a value under a name that has none. -/
def addNew? {α : Type} (d : Dictionary String α) (name : String) (value : α) :
    Option (Dictionary String α) :=
  if d.contains name then none else some (d.insert name value)

/-- Texts with names, in braces on one line. -/
def group : Reader (Dictionary String String) := do
  char '{'
  blanks
  let first ← optional entry
  let rest ← if first.isSome then many (do char ','; blanks; entry) else pure []
  char '}'
  (first.toList ++ rest).foldlM (fun d (name, value) => StateT.lift (addNew? d name value)) .empty

/-- The value of a setting. -/
def value : Reader Setting :=
  (Setting.text <$> text) <|> (Setting.texts <$> texts) <|>
    (Setting.group .braces <$> group) <|> (Setting.flag <$> flag) <|>
    (Setting.moment <$> DateTime.reader)

/-- A heading. -/
def heading : Reader Line := do
  char '['
  blanks
  let name ← key
  blanks
  char ']'
  return .heading name

/-- A setting with its name. -/
def setting : Reader Line := do
  let name ← key
  blanks
  let entry ← optional (do
    char '.'
    blanks
    let entry ← key
    blanks
    return entry)
  char '='
  blanks
  let value ← value
  return .setting name entry value

/-- One line, without its end. -/
def line : Reader Line := do
  blanks
  let line ← heading <|> setting <|> pure .blank
  blanks
  let _ ← optional comment
  return line

/-- All lines of a document. -/
def lines : Reader (List Line) := do
  let first ← line
  let rest ← many (do newline; line)
  endOfText
  return first :: rest

/-- The settings of the lines read so far, and the group under whose heading the next line is. -/
structure Progress where
  settings : Dictionary String Setting
  current : Option String

/-- Adds an entry to a group that is written in a given style. -/
def addToGroup? (settings : Dictionary String Setting) (style : GroupStyle) (name entry : String)
    (value : String) : Option (Dictionary String Setting) :=
  match settings.find? name with
  | some (.group style' entries) =>
    if style = style' then
      (addNew? entries entry value).map fun entries => settings.insert name (.group style entries)
    else none
  | some _ => none
  | none => none

/-- Takes in one line. -/
def Progress.step? (p : Progress) : Line → Option Progress
  | .blank => some p
  | .heading name =>
    (addNew? p.settings name (.group .heading .empty)).map fun settings => ⟨settings, some name⟩
  | .setting name none value =>
    match p.current, value with
    | none, _ => (addNew? p.settings name value).map fun settings => ⟨settings, none⟩
    | some group, .text value =>
      (addToGroup? p.settings .heading group name value).map fun settings => ⟨settings, some group⟩
    | some _, _ => none
  | .setting name (some entry) value =>
    match p.current, value with
    | none, .text value =>
      let settings :=
        if p.settings.contains name then p.settings else p.settings.insert name (.group .dotted .empty)
      (addToGroup? settings .dotted name entry value).map fun settings => ⟨settings, none⟩
    | _, _ => none

/-- Takes a byte order mark off the front of a text. -/
def withoutMark : List Char → List Char
  | '\ufeff' :: rest => rest
  | s => s

/-- The settings of a document, if it is one. -/
def readSettings? (source : String) : Option (Dictionary String Setting) := do
  let (lines, _) ← lines.run (withoutMark source.toList)
  let progress ← lines.foldlM Progress.step? ⟨.empty, none⟩
  return progress.settings

end MethodOperators.Document
