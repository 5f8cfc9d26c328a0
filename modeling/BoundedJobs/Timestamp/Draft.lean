import BoundedJobs.Timestamp.Basic

/-!
# Moments that are being read

While a written moment is read, its numbers are collected: those of the date in the order in which
they come, those of the time of day, and the distance from universal time. What the numbers of the
date mean is only known at the end.

* `Timestamp.Zone`, `Timestamp.Draft` — a distance from universal time, and what has been read;
* `Draft.date?`, `Draft.timeOfDay?`, `Zone.seconds?` — what the parts come to. What was not read is
  the least there is, and a distance that was not read is none;
* `Draft.moment?` — the moment, in milliseconds, if the parts make one. A day behind the end of
  its month counts on into the next one;
* `Calendar.toDay` — the day number of a date.
-/

namespace BoundedJobs

/-- The day number of a date, day 0 being the first of January 1970. -/
def Calendar.toDay (date : Calendar) : Int :=
  let marchYear := if date.month ≤ 2 then date.year - 1 else date.year
  let era := marchYear.fdiv 400
  let yearOfEra := (marchYear.fmod 400).toNat
  let marchMonth := if date.month ≤ 2 then date.month + 9 else date.month - 3
  let dayOfYear := (153 * marchMonth + 2) / 5
  let dayOfEra := yearOfEra * 365 + yearOfEra / 4 - yearOfEra / 100 + dayOfYear
  era * 146097 + (dayOfEra : Int) + ((date.day : Int) - 1) - 719468

namespace Timestamp

/-- A distance from universal time. The minutes may still be missing. -/
structure Zone where
  negative : Bool
  hours : Nat
  minutes? : Option Nat
  deriving DecidableEq

/-- The distance of a zone that is some hours ahead. -/
def Zone.ofHours (ahead : Int) : Zone :=
  { negative := ahead < 0, hours := ahead.natAbs, minutes? := some 0 }

/-- The distance in seconds, which 32 bits have to hold with their sign. The bits above do not
count. -/
def Zone.seconds? (zone : Zone) : Option Int :=
  let size := (3600 * zone.hours + 60 * zone.minutes?.getD 0) % Nat.pow 2 32
  if size < Nat.pow 2 31 then some (if zone.negative then -(size : Int) else size) else none

/-- What has been read of a moment. -/
structure Draft where
  /-- The numbers of the date, at most three. -/
  day : List Int := []
  /-- The month, where it was written as a word. -/
  month? : Option Nat := none
  /-- Hours, minutes, seconds and milliseconds, as far as they were read. -/
  time : List Nat := []
  /-- The hour at which the half of the day begins, where it was named. -/
  half? : Option Nat := none
  zone? : Option Zone := none
  /-- Whether a number has been read. -/
  numbered : Bool := false
  /-- Whether the moment is in the standard form. -/
  standard : Bool := false

namespace Draft

/-! ## Collecting -/

/-- One more number of the date. -/
def addDay (d : Draft) (n : Int) : Option Draft :=
  if d.day.length < 3 then some { d with day := d.day ++ [n], numbered := true } else none

/-- One more number of the time of day. -/
def addTime (d : Draft) (n : Nat) : Option Draft :=
  if d.time.length < 4 then some { d with time := d.time ++ [n], numbered := true } else none

/-- The last numbers of the time of day; those that were not read are zero. -/
def closeTime (d : Draft) (last : List Nat) : Draft :=
  { d with time := (d.time ++ last ++ [0, 0, 0]).take 4, numbered := true }

/-- Whether a number can be the next one of the time of day, behind the hours. -/
def expects (d : Draft) (n : Nat) : Bool :=
  match d.time.length with
  | 1 | 2 => n ≤ 59
  | 3 => n ≤ 999
  | _ => false

/-- The distance with a number as its missing minutes. -/
def withMinutes? (d : Draft) (n : Nat) : Option Draft :=
  match d.zone? with
  | some { negative, hours, minutes? := none } =>
    if n ≤ 59 then
      some { d with zone? := some { negative, hours, minutes? := some n }, numbered := true }
    else none
  | _ => none

/-- Whether universal time was named. -/
def isUniversal (d : Draft) : Bool :=
  d.zone?.any fun zone => zone.hours = 0 && zone.minutes? = some 0

/-! ## Completing -/

def isDay (n : Int) : Bool := 1 ≤ n && n ≤ 31

/-- Year, month and day. A first number that can be no day is the year. Without a month as a word,
the month comes before the day. -/
def arranged (d : Draft) : Int × Int × Int :=
  let first := d.day.getD 0 1
  let second := d.day.getD 1 1
  let third := d.day.getD 2 1
  match d.month? with
  | none =>
    if d.standard || !isDay first then (first, second, third) else (third, first, second)
  | some month => if isDay first then (second, month, first) else (first, month, second)

/-- The year that a number below a hundred stands for outside the standard form. -/
def century (year : Int) : Int :=
  if 0 ≤ year ∧ year ≤ 49 then year + 2000
  else if 50 ≤ year ∧ year ≤ 99 then year + 1900
  else year

/-- The date, if there is one. -/
def date? (d : Draft) : Option Calendar :=
  let (year, month, day) := d.arranged
  if !d.day.isEmpty && 1 ≤ month && month ≤ 12 && isDay day then
    some
      { year := if d.standard then year else century year
        month := month.toNat
        day := day.toNat }
  else none

/-- The hours, counted from the start of the day. In a half of the day there are at most twelve,
and twelve is its first. -/
def hours? (d : Draft) : Option Nat :=
  let hours := d.time.getD 0 0
  match d.half? with
  | none => some hours
  | some start => if hours ≤ 12 then some (hours % 12 + start) else none

/-- The time of day in milliseconds. Of the hour 24 there is only the first moment. -/
def timeOfDay? (d : Draft) : Option Nat := do
  let hours ← d.hours?
  let minutes := d.time.getD 1 0
  let seconds := d.time.getD 2 0
  let thousandths := d.time.getD 3 0
  let sinceHour := 60000 * minutes + 1000 * seconds + thousandths
  if (hours ≤ 23 && minutes ≤ 59 && seconds ≤ 59 && thousandths ≤ 999)
      || (hours = 24 && sinceHour = 0) then
    return 3600000 * hours + sinceHour
  else none

/-- The moment in milliseconds. -/
def moment? (d : Draft) : Option Int := do
  let date ← d.date?
  let time ← d.timeOfDay?
  let ahead ← d.zone?.elim (some 0) Zone.seconds?
  let moment := 86400000 * date.toDay + time - 1000 * ahead
  if moment.natAbs ≤ bound then return moment else none

end Draft

end Timestamp

end BoundedJobs
