import MethodOperators.Document.Reader

/-!
# Dates and times

A date, a time of day, or both together with an offset from universal time. Reading checks the range
of every part; the days of a month depend on the month and the year. Writing gives each value one
form: a capital `T` between date and time, no more than nine places of a second and no zeros at
their end, and a sign on every offset but `Z`.
-/

namespace MethodOperators.Document

/-- A day of the calendar. -/
structure Date where
  year : Nat
  month : Nat
  day : Nat
  deriving DecidableEq, Repr

/-- A time of day. -/
structure Time where
  hour : Nat
  minute : Nat
  second : Nat
  /-- Places after the point of a second. -/
  fraction : List Char
  deriving DecidableEq, Repr

/-- A distance from universal time. -/
inductive Offset where
  /-- Universal time itself. -/
  | utc
  /-- So many minutes ahead. -/
  | minutes (ahead : Int)
  deriving DecidableEq, Repr

/-- A date, a time of day, or both; an offset goes with both only. -/
inductive DateTime where
  | date (day : Date)
  | time (clock : Time)
  | both (day : Date) (clock : Time) (offset : Option Offset)
  deriving DecidableEq, Repr

open Reader

/-- Number of days of a month. -/
def daysInMonth (year month : Nat) : Nat :=
  if month = 2 then
    if year % 4 = 0 ∧ (year % 100 ≠ 0 ∨ year % 400 = 0) then 29 else 28
  else if month ∈ [4, 6, 9, 11] then 30
  else 31

/-- A number of a given number of digits, within a range. -/
def number (digits low high : Nat) : Reader Nat := do
  let cs ← times (satisfy Char.isDigit) digits
  let value := cs.foldl (fun value c => 10 * value + (c.toNat - '0'.toNat)) 0
  if low ≤ value ∧ value ≤ high then return value else failure

/-- A day, as in `1979-05-27`. -/
def Date.reader : Reader Date := do
  let year ← number 4 0 9999
  char '-'
  let month ← number 2 1 12
  char '-'
  let day ← number 2 1 (daysInMonth year month)
  return ⟨year, month, day⟩

/-- The places of a second that count: nine at most, without zeros at the end. -/
def significantPlaces (places : List Char) : List Char :=
  ((places.take 9).reverse.dropWhile (fun c => c == '0')).reverse

/-- A time of day, as in `07:32:00.5`. A minute may have a leap second. -/
def Time.reader : Reader Time := do
  let hour ← number 2 0 23
  char ':'
  let minute ← number 2 0 59
  char ':'
  let second ← number 2 0 60
  let places ← optional (do
    char '.'
    let places ← takeWhile Char.isDigit
    if places.isEmpty then failure else return places)
  return ⟨hour, minute, second, significantPlaces (places.getD [])⟩

/-- An offset, as in `Z` or `-07:00`. -/
def Offset.reader : Reader Offset :=
  (do
    let _ ← satisfy (fun c => c == 'Z' || c == 'z')
    return .utc) <|>
  (do
    let sign ← satisfy (fun c => c == '+' || c == '-')
    let hours ← number 2 0 23
    char ':'
    let minutes ← number 2 0 59
    let ahead : Int := Int.ofNat (60 * hours + minutes)
    return .minutes (if sign == '-' then -ahead else ahead))

/-- A date or a time, or a date with a time after a `T` or a space. -/
def DateTime.reader : Reader DateTime :=
  (do
    let day ← Date.reader
    let rest ← optional (do
      let _ ← satisfy (fun c => c == 'T' || c == 't' || c == ' ')
      let clock ← Time.reader
      let offset ← optional Offset.reader
      return (clock, offset))
    match rest with
    | some (clock, offset) => return .both day clock offset
    | none => return .date day) <|>
  (DateTime.time <$> Time.reader)

/-- A number with zeros in front, up to a given width. -/
def padded (width n : Nat) : String :=
  let digits := Nat.toDigits 10 n
  String.ofList (List.replicate (width - digits.length) '0' ++ digits)

/-- The written form of a day. -/
def Date.render (d : Date) : String :=
  padded 4 d.year ++ "-" ++ padded 2 d.month ++ "-" ++ padded 2 d.day

/-- The written form of a time of day. -/
def Time.render (t : Time) : String :=
  padded 2 t.hour ++ ":" ++ padded 2 t.minute ++ ":" ++ padded 2 t.second ++
    if t.fraction.isEmpty then "" else "." ++ String.ofList t.fraction

/-- The written form of an offset. -/
def Offset.render : Offset → String
  | utc => "Z"
  | minutes ahead =>
    (if ahead < 0 then "-" else "+") ++ padded 2 (ahead.natAbs / 60) ++ ":" ++
      padded 2 (ahead.natAbs % 60)

/-- The written form of a date or time. -/
def DateTime.render : DateTime → String
  | date d => d.render
  | time t => t.render
  | both d t offset => d.render ++ "T" ++ t.render ++ (offset.map Offset.render).getD ""

end MethodOperators.Document
