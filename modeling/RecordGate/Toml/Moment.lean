import RecordGate.Toml.Quoted

/-! # Dates and times

A moment is a date, a time of day, or both with a letter or a space between them; after both may come the
offset of a time zone. The parts have a fixed number of digits and must exist in the calendar. -/

namespace RecordGate.Toml

/-- Reads a number of exactly so many digits. -/
def readFixed (count : Nat) (text : List Char) : Option (Nat × List Char) := do
  let digits ← (text.take count).mapM (digit? 10)
  if digits.length = count then return (numeral 10 digits, text.drop count) else none

/-- Reads one character. -/
def expect (expected : Char) : List Char → Option (List Char)
  | [] => none
  | c :: rest => if c = expected then some rest else none

/-- Every fourth year is a leap year, of the full centuries every fourth. -/
def isLeapYear (year : Nat) : Bool :=
  year % 4 = 0 && (year % 100 ≠ 0 || year % 400 = 0)

/-- The number of days of a month. -/
def daysIn (year month : Nat) : Nat :=
  if month = 2 then (if isLeapYear year then 29 else 28)
  else if month ∈ [4, 6, 9, 11] then 30
  else 31

/-- Reads a date. -/
def readDate (text : List Char) : Option (List Char) := do
  let (year, rest) ← readFixed 4 text
  let rest ← expect '-' rest
  let (month, rest) ← readFixed 2 rest
  let rest ← expect '-' rest
  let (day, rest) ← readFixed 2 rest
  if 1 ≤ month ∧ month ≤ 12 ∧ 1 ≤ day ∧ day ≤ daysIn year month then return rest else none

/-- Reads an hour and a minute. -/
def readHourMinute (text : List Char) : Option (List Char) := do
  let (hour, rest) ← readFixed 2 text
  let rest ← expect ':' rest
  let (minute, rest) ← readFixed 2 rest
  if hour < 24 ∧ minute < 60 then return rest else none

/-- Reads a point and the digits of a fraction, if they follow. -/
def skipFraction (text : List Char) : List Char :=
  match text with
  | '.' :: rest => if (rest.head?.map Char.isDigit).getD false then rest.dropWhile Char.isDigit else text
  | _ => text

/-- Reads a time of day. A minute may have a leap second. -/
def readTime (text : List Char) : Option (List Char) := do
  let rest ← readHourMinute text
  let rest ← expect ':' rest
  let (second, rest) ← readFixed 2 rest
  if second ≤ 60 then return skipFraction rest else none

/-- Reads the offset of a time zone. -/
def readOffset : List Char → Option (List Char)
  | [] => none
  | c :: rest =>
    if c = 'Z' ∨ c = 'z' then some rest
    else if c = '+' ∨ c = '-' then readHourMinute rest
    else none

/-- Reads what follows the date of a moment: a time of day and an offset, as far as they are there. -/
def skipTime (text : List Char) : List Char :=
  match text with
  | [] => []
  | c :: rest =>
    if c = 'T' ∨ c = 't' ∨ c = ' ' then
      match readTime rest with
      | none => text
      | some rest => (readOffset rest).getD rest
    else text

/-- Reads a moment as it is written. -/
def readMoment (text : List Char) : Option (String × List Char) := do
  let rest ← (readDate text).map skipTime <|> readTime text
  return (String.ofList (text.take (text.length - rest.length)), rest)

end RecordGate.Toml
