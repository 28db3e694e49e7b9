import Scenario.Clock

/-!
# Instants in a format of one's own

`Instant.format?` writes an instant as a format says: `%` and a letter stand for a part of it, all
other characters for themselves. Between `%` and the letter a sign may choose how a number is filled
up: `-` for not at all, `_` with blanks, `0` with zeros. There is no result for a format that has a
`%` without a meaning.
-/

namespace Scenario

namespace Instant

def monthNames : List String := [
  "January", "February", "March", "April", "May", "June", "July", "August", "September", "October",
  "November", "December"]

def dayNames : List String := [
  "Sunday", "Monday", "Tuesday", "Wednesday", "Thursday", "Friday", "Saturday"]

/-- The day of the week, from Sunday. -/
def weekday (t : Instant) : Nat := (t.dayNumber + 4) % 7

/-- Whether a year has a leap day. -/
def isLeap (year : Nat) : Bool := year % 4 = 0 && (year % 100 ≠ 0 || year % 400 = 0)

/-- The days of the months. -/
def monthLengths (year : Nat) : List Nat :=
  [31, if isLeap year then 29 else 28, 31, 30, 31, 30, 31, 31, 30, 31, 30, 31]

/-- The day of the year, from one. -/
def dayOfYear (t : Instant) : Nat :=
  let d := t.date
  ((monthLengths d.year).take (d.month - 1)).foldl (· + ·) 0 + d.day

/-- The number of days of a year. -/
def yearLength (year : Nat) : Nat := if isLeap year then 366 else 365

/-- The year and the week by which weeks are counted from Monday, a week belonging to the year of its
Thursday. -/
def weekDate (t : Instant) : Nat × Nat :=
  let year := t.date.year
  let fromMonday := (t.weekday + 6) % 7
  let thursday : Int := (t.dayOfYear : Int) + 3 - fromMonday
  if thursday < 1 then (year - 1, (thursday.toNat + yearLength (year - 1) + 6) / 7)
  else if (yearLength year : Int) < thursday then (year + 1, 1)
  else (year, (thursday.toNat + 6) / 7)

/-- How a number is filled up. -/
inductive Filling where
  | none
  | blanks
  | zeros

/-- A number with at least `width` characters. -/
def filled (filling : Filling) (width n : Nat) : String :=
  match filling with
  | .none => toString n
  | .zeros => padded width n
  | .blanks =>
    let digits := toString n
    String.ofList (List.replicate (width - digits.length) ' ') ++ digits

/-- The hour on a clock of twelve. -/
def clockHour (t : Instant) : Nat := if t.hour % 12 = 0 then 12 else t.hour % 12

/-- The numbers that letters stand for, with their widths and fillings. -/
def numberField? (t : Instant) (letter : Char) : Option (Filling × Nat × Nat) :=
  let d := t.date
  match letter with
  | 'Y' => some (.zeros, 4, d.year)
  | 'C' => some (.zeros, 2, d.year / 100)
  | 'y' => some (.zeros, 2, d.year % 100)
  | 'q' => some (.none, 1, (d.month + 2) / 3)
  | 'm' => some (.zeros, 2, d.month)
  | 'd' => some (.zeros, 2, d.day)
  | 'e' => some (.blanks, 2, d.day)
  | 'w' => some (.none, 1, t.weekday)
  | 'u' => some (.none, 1, if t.weekday = 0 then 7 else t.weekday)
  -- weeks of the calendar year: from its first Sunday on, and from its first Monday on
  | 'U' => some (.zeros, 2, (t.dayOfYear + 6 - t.weekday) / 7)
  | 'W' => some (.zeros, 2, (t.dayOfYear + 6 - (t.weekday + 6) % 7) / 7)
  -- the year of an ISO week is not always the year of the date
  | 'G' => some (.zeros, 4, t.weekDate.1)
  | 'g' => some (.zeros, 2, t.weekDate.1 % 100)
  | 'V' => some (.zeros, 2, t.weekDate.2)
  | 'j' => some (.zeros, 3, t.dayOfYear)
  | 'H' => some (.zeros, 2, t.hour)
  | 'k' => some (.blanks, 2, t.hour)
  | 'I' => some (.zeros, 2, t.clockHour)
  | 'l' => some (.blanks, 2, t.clockHour)
  | 'M' => some (.zeros, 2, t.minute)
  | 'S' => some (.zeros, 2, t.second)
  | 'f' => some (.zeros, 9, t.millisecond * 1000000)
  | 's' => some (.none, 1, t / 1000)
  | _ => none

/-- The texts that letters stand for. -/
def textField? (t : Instant) (letter : Char) : Option String :=
  let month := (monthNames[t.date.month - 1]?).getD ""
  let day := (dayNames[t.weekday]?).getD ""
  match letter with
  | 'B' => some month
  | 'b' => some (month.take 3).toString
  | 'h' => some (month.take 3).toString
  | 'A' => some day
  | 'a' => some (day.take 3).toString
  | 'P' => some (if t.hour < 12 then "am" else "pm")
  | 'p' => some (if t.hour < 12 then "AM" else "PM")
  | 'Z' => some "+00:00"
  | 'z' => some "+0000"
  | 't' => some "\t"
  | 'n' => some "\n"
  | '%' => some "%"
  | _ => none

/-- The formats that letters stand for. -/
def compound? : Char → Option String
  | 'D' => some "%m/%d/%y"
  | 'x' => some "%m/%d/%y"
  | 'F' => some "%Y-%m-%d"
  | 'v' => some "%e-%b-%Y"
  | 'R' => some "%H:%M"
  | 'T' => some "%H:%M:%S"
  | 'X' => some "%H:%M:%S"
  | 'r' => some "%I:%M:%S %p"
  | 'c' => some "%a %b %e %H:%M:%S %Y"
  | '+' => some "%Y-%m-%dT%H:%M:%S%.f%:z"
  | _ => none

/-- The first digits of the fraction of a second. -/
def fraction (t : Instant) (places : Nat) : String :=
  ((padded 9 (t.millisecond * 1000000)).take places).toString

/-- The fraction of a second as long as it is not zero. -/
def shortFraction (t : Instant) : String :=
  if t.millisecond = 0 then "" else "." ++ t.fraction 3

/-- The filling that a sign chooses. -/
def filling? : Char → Option Filling
  | '-' => some .none
  | '_' => some .blanks
  | '0' => some .zeros
  | _ => none

/-- The text of a field without its `%`, and what follows the field. -/
def field? (t : Instant) : List Char → Option (String × List Char)
  | '.' :: 'f' :: rest => some (t.shortFraction, rest)
  | '.' :: '3' :: 'f' :: rest => some ("." ++ t.fraction 3, rest)
  | '.' :: '6' :: 'f' :: rest => some ("." ++ t.fraction 6, rest)
  | '.' :: '9' :: 'f' :: rest => some ("." ++ t.fraction 9, rest)
  | '3' :: 'f' :: rest => some (t.fraction 3, rest)
  | '6' :: 'f' :: rest => some (t.fraction 6, rest)
  | '9' :: 'f' :: rest => some (t.fraction 9, rest)
  | ':' :: 'z' :: rest => some ("+00:00", rest)
  | ':' :: ':' :: 'z' :: rest => some ("+00:00:00", rest)
  | ':' :: ':' :: ':' :: 'z' :: rest => some ("+00", rest)
  -- a filling of its own stands before the letter of a number, and before no other letter
  | c :: rest =>
    match filling? c, rest with
    | some filling, letter :: more =>
      (t.numberField? letter).map fun (_, width, n) => (filled filling width n, more)
    | _, _ =>
      match t.numberField? c with
      | some (filling, width, n) => some (filled filling width n, rest)
      | none => (t.textField? c).map fun s => (s, rest)
  | [] => none

/-- Writes an instant in a format without compound fields. -/
def writeFields? (t : Instant) : Nat → List Char → Option String
  | 0, _ => some ""
  | _, [] => some ""
  | fuel + 1, c :: rest =>
    if c = '%' then
      match t.field? rest with
      | some (s, more) => (t.writeFields? fuel more).map fun later => s ++ later
      | none => none
    else (t.writeFields? fuel rest).map fun later => String.singleton c ++ later

/-- A format with its compound fields written out. -/
def expand : List Char → List Char
  | '%' :: c :: rest =>
    match compound? c with
    | some format => format.toList ++ expand rest
    | none => '%' :: c :: expand rest
  | c :: rest => c :: expand rest
  | [] => []

/-- **An instant in a format.** -/
def format? (t : Instant) (format : String) : Option String :=
  let fields := expand format.toList
  t.writeFields? fields.length fields

end Instant

end Scenario
