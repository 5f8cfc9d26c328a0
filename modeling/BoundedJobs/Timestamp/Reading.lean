import BoundedJobs.Timestamp.Draft
import BoundedJobs.Timestamp.Token

/-!
# Reading a moment

A moment that was kept as text is read from its written form. The standard form is a year, perhaps
with a month and a day, and perhaps with a time of day, which may leave out the seconds and may name
its distance from universal time. Where a date goes on in another way, or none begins, the rest is
read freely: numbers are taken as they come, months and zones may be words, and marks that mean
nothing are skipped. A time of day behind the letter for it has to be in the standard form.

* `Timestamp.standard?` — what the standard form gives, and the parts that are left;
* `Timestamp.free?` — what the parts that are left add;
* `Timestamp.ofText` — the moment that a text writes; not a number for any other text.
-/

namespace BoundedJobs

namespace Timestamp

/-- The milliseconds that the digits behind a point write. -/
def thousandths (value length : Nat) : Nat :=
  if length ≤ 3 then value * Nat.pow 10 (3 - length)
  else value / Nat.pow 10 (min length 9 - 3)

/-! ## The standard form -/

/-- The numbers of a time of day, with the parts that are left. -/
def clock? : List Token → Option (List Nat × List Token)
  | .number hours 2 :: .colon :: .number minutes 2 :: rest =>
    -- midnight may be written as the end of a day, but nothing behind it
    let most := if hours = 24 then 0 else 59
    if 24 < hours ∨ most < minutes then none
    else
      match rest with
      | .colon :: .number seconds 2 :: rest =>
        if most < seconds then none
        else
          match rest with
          | .point :: .number part length :: rest =>
            if hours = 24 ∧ part ≠ 0 then none
            else some ([hours, minutes, seconds, thousandths part length], rest)
          | .point :: _ => none
          | rest => some ([hours, minutes, seconds], rest)
      | .colon :: _ => none
      | rest => some ([hours, minutes], rest)
  | _ => none

/-- A distance from universal time. -/
def distance? (negative : Bool) (hours minutes : Nat) : Option (Option Zone) :=
  if hours ≤ 23 ∧ minutes ≤ 59 then some (some { negative, hours, minutes? := some minutes })
  else none

/-- The distance that is all that is left, if there is anything left. -/
def distanceAtEnd? : List Token → Option (Option Zone)
  | [] => some none
  | [.word (.zone ahead) 1] => some (some (.ofHours ahead))
  | [.sign negative, .number digits 4] => distance? negative (digits / 100) (digits % 100)
  | [.sign negative, .number hours 2, .colon, .number minutes 2] => distance? negative hours minutes
  | _ => none

/-- What follows a date: nothing, a time of day up to the end, or something else, which is left. -/
def afterDate? (day : List Int) : List Token → Option (Draft × List Token)
  | [] => some ({ day, numbered := true, standard := true }, [])
  | .word .time _ :: rest => do
    let (time, rest) ← clock? rest
    let zone? ← distanceAtEnd? rest
    return ({ day, time, zone?, numbered := true, standard := true }, [])
  | rest => some ({ day, numbered := true }, rest)

/-- What follows a year and a month. -/
def afterMonth? (day : List Int) : List Token → Option (Draft × List Token)
  | .sign true :: .number n 2 :: rest =>
    -- a number that is no day is left for the free form, without its hyphen
    if 1 ≤ n ∧ n ≤ 31 then afterDate? (day ++ [(n : Int)]) rest
    else some ({ day, numbered := true }, .number n 2 :: rest)
  | .sign true :: rest => some ({ day, numbered := true }, rest)
  | rest => afterDate? day rest

/-- What follows a year. -/
def afterYear? (year : Int) : List Token → Option (Draft × List Token)
  | .sign true :: .number n 2 :: rest =>
    if 1 ≤ n ∧ n ≤ 12 then afterMonth? [year, (n : Int)] rest
    else some ({ day := [year], numbered := true }, .number n 2 :: rest)
  | .sign true :: rest => some ({ day := [year], numbered := true }, rest)
  | rest => afterDate? [year] rest

/-- What the standard form gives, with the parts that are left. A year has four digits, or a sign
and six; there is no year minus zero, and its digits are not read again. -/
def standard? : List Token → Option (Draft × List Token)
  | .number year 4 :: rest => afterYear? year rest
  | .sign negative :: .number year 6 :: rest =>
    if negative && year = 0 then some ({}, .sign negative :: rest)
    else afterYear? (if negative then -(year : Int) else year) rest
  | rest => some ({}, rest)

/-! ## The free form -/

/-- The parts without a hyphen at their front. -/
def skipHyphen : List Token → List Token
  | .sign true :: rest => rest
  | rest => rest

/-- Whether a time of day can end in front of some parts. -/
def endsTime : List Token → Bool
  | [] | .blank :: _ | .sign _ :: _ | .word (.zone _) 1 :: _ => true
  | _ => false

/-- A number that no mark makes a part of a time of day. -/
def placeNumber (d : Draft) (n : Nat) (rest : List Token) : Option (Draft × List Token) :=
  match d.withMinutes? n with
  | some d => some (d, rest)
  | none =>
    if d.expects n then if endsTime rest then some (d.closeTime [n], rest) else none
    else (d.addDay n).map fun d => (d, skipHyphen rest)

/-- What a number adds, given the parts behind it. -/
def readNumber (d : Draft) (n : Nat) : List Token → Option (Draft × List Token)
  -- two colons stand for minutes that are left out
  | .colon :: .colon :: rest =>
    if d.time.isEmpty then some ({ d with time := [n, 0], numbered := true }, rest) else none
  | .colon :: .point :: rest => (d.addTime n).map fun d => (d, rest)
  | .colon :: rest => (d.addTime n).map fun d => (d, rest)
  | .point :: rest =>
    if d.expects n then
      match rest with
      | .number part length :: rest => some (d.closeTime [n, thousandths part length], rest)
      | _ => none
    else placeNumber d n rest
  | rest => placeNumber d n rest

/-- A word without a meaning is skipped, but not behind a number and not right in front of one. -/
def skipWord (d : Draft) : List Token → Option (Draft × List Token)
  | .number .. :: _ => none
  | rest => if d.numbered then none else some (d, rest)

/-- What a word adds. -/
def readWord (d : Draft) (meaning : Word) (rest : List Token) : Option (Draft × List Token) :=
  match meaning with
  | .month number => some ({ d with month? := some number }, skipHyphen rest)
  | .half start =>
    if d.time.isEmpty then skipWord d rest else some ({ d with half? := some start }, rest)
  | .zone ahead =>
    if d.numbered then some ({ d with zone? := some (.ofHours ahead) }, rest) else skipWord d rest
  | _ => skipWord d rest

/-- The distance that a number behind a sign writes: hours, hours and minutes, or hours with a
colon and minutes to come. -/
def readDistance (d : Draft) (negative : Bool) (n length : Nat) (rest : List Token) :
    Option (Draft × List Token) :=
  let found (hours : Nat) (minutes? : Option Nat) : Option (Draft × List Token) :=
    some ({ d with zone? := some { negative, hours, minutes? }, numbered := true }, rest)
  match rest with
  | .colon :: _ => found n none
  | _ =>
    -- `+5`, `+05` and `+0530` are told apart by their length
    if length = 1 ∨ length = 2 then found n (some 0)
    else if length = 3 ∨ length = 4 then found (n / 100) (some (n % 100))
    else none

/-- What a sign adds. It belongs to a distance behind universal time or a time of day; elsewhere it
is skipped, but not behind a number. -/
def readSign (d : Draft) (negative : Bool) (rest : List Token) : Option (Draft × List Token) :=
  if d.isUniversal || !d.time.isEmpty then
    match rest with
    | .number n length :: rest => readDistance d negative n length rest
    | _ => readDistance d negative 0 0 rest
  else if d.numbered then none
  else some (d, rest)

/-- What one part adds, with the parts that are left behind it. -/
def readToken (d : Draft) (token : Token) (rest : List Token) : Option (Draft × List Token) :=
  match token with
  | .number n _ => readNumber d n rest
  | .word meaning _ => readWord d meaning rest
  | .sign negative => readSign d negative rest
  | .close => if d.numbered then none else some (d, rest)
  | _ => some (d, rest)

/-- What parts add; every one takes itself away, so `fuel` need not exceed their number. -/
def freeWithin : Nat → Draft → List Token → Option Draft
  | _, d, [] => some d
  | 0, d, _ => some d
  | fuel + 1, d, token :: rest => do
    let (d, rest) ← readToken d token rest
    freeWithin fuel d rest

/-- What parts in the free form add. -/
def free? (d : Draft) (parts : List Token) : Option Draft := freeWithin parts.length d parts

/-! ## The moment -/

/-- The moment that a text writes. -/
def moment? (s : String) : Option Int := do
  let (d, rest) ← standard? (tokens s)
  let d ← free? d rest
  d.moment?

/-- The moment that a text writes, if it writes one. -/
def ofText (s : String) : Number := (moment? s).elim .nan Number.ofInt

end Timestamp

end BoundedJobs
