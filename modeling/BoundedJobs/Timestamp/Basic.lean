import BoundedJobs.Value.Basic

/-!
# Moments and their written form

A moment is a number of milliseconds since the first of January 1970. It is written as a date and
a time of day in universal time, with three places for the milliseconds. Calendar years from 0 to
9999 have four digits, all others a sign and six.

* `Calendar.ofDay` — year, month and day of a day number, counted in eras of 400 years whose years
  begin in March, so that a leap day is the last day of its year;
* `Timestamp.text` — the text of a moment, refused outside the range of 8.64e15 milliseconds
  around 1970.
-/

namespace BoundedJobs

/-! ## Days -/

/-- A date. -/
structure Calendar where
  year : Int
  month : Nat
  day : Nat
  deriving DecidableEq, Repr

/-- The date of a day number, day 0 being the first of January 1970. -/
def Calendar.ofDay (number : Int) : Calendar :=
  let shifted := number + 719468
  let era := shifted.fdiv 146097
  let dayOfEra := (shifted.fmod 146097).toNat
  let yearOfEra := (dayOfEra - dayOfEra / 1460 + dayOfEra / 36524 - dayOfEra / 146096) / 365
  let dayOfYear := dayOfEra - (365 * yearOfEra + yearOfEra / 4 - yearOfEra / 100)
  let marchMonth := (5 * dayOfYear + 2) / 153
  let day := dayOfYear - (153 * marchMonth + 2) / 5 + 1
  let month := if marchMonth < 10 then marchMonth + 3 else marchMonth - 9
  let year := (yearOfEra : Int) + era * 400 + if month ≤ 2 then 1 else 0
  { year, month, day }

/-! ## The written form -/

namespace Timestamp

/-- A natural number with at least `width` digits. -/
def padded (width n : Nat) : String :=
  let digits := Nat.toDigits 10 n
  String.ofList (List.replicate (width - digits.length) '0' ++ digits)

/-- A calendar year: four digits from 0 to 9999, a sign and six digits otherwise. -/
def yearText (year : Int) : String :=
  if 0 ≤ year ∧ year ≤ 9999 then padded 4 year.toNat
  else (if year < 0 then "-" else "+") ++ padded 6 year.natAbs

/-- The text of a moment given in whole milliseconds. -/
def wholeText (milliseconds : Int) : String :=
  let date := Calendar.ofDay (milliseconds.fdiv 86400000)
  let rest := (milliseconds.fmod 86400000).toNat
  yearText date.year ++ "-" ++ padded 2 date.month ++ "-" ++ padded 2 date.day
    ++ "T" ++ padded 2 (rest / 3600000) ++ ":" ++ padded 2 (rest / 60000 % 60)
    ++ ":" ++ padded 2 (rest / 1000 % 60) ++ "." ++ padded 3 (rest % 1000) ++ "Z"

/-- The farthest moment from 1970, in milliseconds. -/
def bound : Nat := 8640000000000000

/-- The error for a number that is no moment. -/
def invalid : Fault := { kind := .range, message := "Invalid time value" }

/-- The text of a moment; a fraction of a millisecond is cut off. -/
def text (moment : Number) : Except Fault String :=
  if Number.le (Number.ofInt (-bound)) moment && Number.le moment (Number.ofInt bound) then
    .ok (wholeText (moment.truncated?.getD 0))
  else .error invalid

end Timestamp

end BoundedJobs
