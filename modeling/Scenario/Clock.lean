/-!
# Instants

An instant is a number of milliseconds since the beginning of 1970. `Instant.date` finds the calendar
day; the two stamps are how an instant is written in records and in log lines.
-/

namespace Scenario

/-- Milliseconds since the beginning of 1970. -/
abbrev Instant := Nat

namespace Instant

/-- A calendar day. -/
structure Date where
  year : Nat
  month : Nat
  day : Nat
deriving DecidableEq, Repr

/-- The day with a number, counted from the first day of 1970. Years are taken to begin in March, so
that the leap day comes last, and come in eras of 400. -/
def dateOfDay (day : Nat) : Date :=
  let shifted := day + 719468
  let era := shifted / 146097
  let ofEra := shifted % 146097
  let yearOfEra := (ofEra - ofEra / 1460 + ofEra / 36524 - ofEra / 146096) / 365
  let ofYear := ofEra - (365 * yearOfEra + yearOfEra / 4 - yearOfEra / 100)
  let month := (5 * ofYear + 2) / 153
  let dayOfMonth := ofYear - (153 * month + 2) / 5 + 1
  let calendarMonth := if month < 10 then month + 3 else month - 9
  ⟨yearOfEra + era * 400 + (if calendarMonth ≤ 2 then 1 else 0), calendarMonth, dayOfMonth⟩

/-- The number of the day since the first day of 1970. -/
def dayNumber (t : Instant) : Nat := t / 86400000

/-- The calendar day. -/
def date (t : Instant) : Date := dateOfDay (dayNumber t)

def hour (t : Instant) : Nat := t / 3600000 % 24

def minute (t : Instant) : Nat := t / 60000 % 60

def second (t : Instant) : Nat := t / 1000 % 60

def millisecond (t : Instant) : Nat := t % 1000

/-- A number with at least `width` digits. -/
def padded (width n : Nat) : String :=
  let digits := toString n
  String.ofList (List.replicate (width - digits.length) '0') ++ digits

/-- Year, month and day. -/
def day (t : Instant) : String :=
  let d := t.date
  padded 4 d.year ++ "-" ++ padded 2 d.month ++ "-" ++ padded 2 d.day

/-- Hour, minute and second. -/
def time (t : Instant) : String :=
  padded 2 t.hour ++ ":" ++ padded 2 t.minute ++ ":" ++ padded 2 t.second

/-- **The stamp of records.** -/
def stamp (t : Instant) : String :=
  t.day ++ " " ++ t.time

/-- **The stamp of log lines,** with milliseconds. -/
def fineStamp (t : Instant) : String :=
  t.stamp ++ "." ++ padded 3 t.millisecond

end Instant

end Scenario
