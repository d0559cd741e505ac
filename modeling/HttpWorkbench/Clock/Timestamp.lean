import HttpWorkbench.Number.Written
import HttpWorkbench.Text.Quoted

/-!
# Timestamps

A clock reading counts milliseconds since the start of 1970. Its timestamp is the date and time
in the calendar of all dates, with six digits for the fraction of a second unless that is zero.
-/

namespace HttpWorkbench.Timestamp

/-- Days from the first of January of the year 1 to that of the given year. -/
def daysBeforeYear (year : Nat) : Nat :=
  let past := year - 1
  365 * past + past / 4 - past / 100 + past / 400

/-- Whether the year has a leap day. -/
def isLeap (year : Nat) : Bool := year % 4 == 0 && (year % 100 != 0 || year % 400 == 0)

/-- The months of a year by their lengths. -/
def monthLengths (year : Nat) : List Nat :=
  [31, if isLeap year then 29 else 28, 31, 30, 31, 30, 31, 31, 30, 31, 30, 31]

/-- The last of the years from `year` on, at most `fuel` later, that starts on or before the day. -/
def yearFrom (day : Nat) : Nat → Nat → Nat
  | 0, year => year
  | fuel + 1, year => if daysBeforeYear (year + 1) ≤ day then yearFrom day fuel (year + 1) else year

/-- The year of a day, counted from the first day of the year 1. In 400 years there are 146097 days,
so that the mean length of a year leaves few years to try. -/
def yearOf (day : Nat) : Nat := yearFrom day 3 (max 1 (400 * day / 146097))

/-- The month and the day in it, both from one, of a day counted from the start of the month
with the given number. -/
def monthOf (month day : Nat) : List Nat → Nat × Nat
  | [] => (month, day + 1)
  | length :: rest =>
    if day < length then (month, day + 1) else monthOf (month + 1) (day - length) rest

/-- The year, month and day of a day counted from the first day of the year 1. -/
def dateOf (day : Nat) : Nat × Nat × Nat :=
  let year := yearOf day
  let (month, dayOfMonth) := monthOf 1 (day - daysBeforeYear year) (monthLengths year)
  (year, month, dayOfMonth)

/-- A number with leading zeros up to a width. -/
def padded (width n : Nat) : Text :=
  let digits := natText n
  List.replicate (width - digits.length) (.char '0') ++ digits

/-- Days from the first day of the year 1 to the start of 1970. -/
def epochDay : Nat := 719162

/-- Milliseconds since the start of the year 1; earlier readings count as that start. -/
def sinceYearOne (now : Int) : Nat := (now + (epochDay * 86400000 : Nat)).toNat

/-- The timestamp of a number of milliseconds since the start of the year 1. -/
def ofMilliseconds (total : Nat) : Text :=
  let (year, month, day) := dateOf (total / 86400000)
  let seconds := total / 1000 % 86400
  let fraction := total % 1000
  padded 4 year ++ "-" ++ padded 2 month ++ "-" ++ padded 2 day ++ "T" ++
    padded 2 (seconds / 3600) ++ ":" ++ padded 2 (seconds / 60 % 60) ++ ":" ++
    padded 2 (seconds % 60) ++
    (if fraction = 0 then [] else .char '.' :: padded 6 (fraction * 1000)) ++ "+00:00"

end HttpWorkbench.Timestamp

namespace HttpWorkbench

/-- The timestamp of a clock reading. -/
def timestamp (now : Int) : Text := Timestamp.ofMilliseconds (Timestamp.sinceYearOne now)

/-- What new records draw from: the clock, and a supply of identifiers that never repeat. -/
structure Supply where
  /-- The clock reading in milliseconds. -/
  now : Int
  /-- How many identifiers have been drawn. -/
  drawn : Nat

namespace Supply

/-- The next identifier, 32 hexadecimal digits, and the supply after it. -/
def draw (supply : Supply) : Text × Supply :=
  let n := supply.drawn + 1
  (Text.hexDigits 32 n, { supply with drawn := n })

end Supply

end HttpWorkbench
