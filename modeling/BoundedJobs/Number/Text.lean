import BoundedJobs.Number.Basic

/-!
# The written form of a number

A number is written with the fewest significant digits that read back as the same number, and of
those with the digits nearest to it. Two parts are kept apart:

* the digits: `Number.shortest` tries one digit, then two, and so on, and for each count looks at
  the two decimals next to the number. If any decimal with that many digits reads back, one of
  these two does;
* the layout: `layout` sets the point. A number from `10 ^ -6` up to below `10 ^ 21` is
  positional, any other has a point after its first digit and a signed exponent.

Whole numbers up to `exactBound` are written by their digits without a search.
-/

namespace BoundedJobs

namespace Number

/-! ## The fewest digits that read back -/

/-- A decimal `digits · 10 ^ place`. -/
structure Decimal where
  digits : Nat
  place : Int
  deriving DecidableEq, Repr

namespace Decimal

/-- The number nearest to the decimal. -/
def number (d : Decimal) : Number := ofDecimal d.digits d.place

/-- The decimal itself, as a rational. -/
def value (d : Decimal) : Rat :=
  if 0 ≤ d.place then ((d.digits * Nat.pow 10 d.place.toNat : Nat) : Rat)
  else mkRat (d.digits : Int) (Nat.pow 10 (-d.place).toNat)

/-- The same decimal without zeros at its end; `fuel` bounds how many are taken off. -/
def trimmed : Nat → Decimal → Decimal
  | 0, d => d
  | fuel + 1, d =>
    if d.digits ≠ 0 ∧ d.digits % 10 = 0 then trimmed fuel ⟨d.digits / 10, d.place + 1⟩
    else d

end Decimal

/-- The exponent `e` with `10 ^ e ≤ q < 10 ^ (e + 1)` for a positive `q`, searched downwards from an
estimate that is never too small by the length of the binary exponent. -/
def decimalExponent (q : Rat) : Int :=
  let estimate : Int := (binaryExponent q.num.natAbs q.den * 30103).fdiv 100000 + 1
  let reached (e : Int) : Bool := (Decimal.mk 1 e).value ≤ q
  -- the estimate is too large by at most three
  if reached estimate then estimate
  else if reached (estimate - 1) then estimate - 1
  else if reached (estimate - 2) then estimate - 2
  else estimate - 3

/-- The decimal on the grid of multiples of `10 ^ place` that reads back as the positive number
`q`, if there is one: of two, the nearer, and of two equally near the one with even digits. -/
def onGrid? (q : Rat) (place : Int) : Option Decimal :=
  let scaled : Rat :=
    if 0 ≤ place then q / (Nat.pow 10 place.toNat : Nat)
    else q * (Nat.pow 10 (-place).toNat : Nat)
  -- only the two neighbours on the grid can read back if any decimal on it does
  let below : Decimal := ⟨scaled.floor.toNat, place⟩
  let above : Decimal := ⟨scaled.floor.toNat + 1, place⟩
  match below.number == finite q, above.number == finite q with
  | true, true =>
    let low := q - below.value
    let high := above.value - q
    if low < high then some below
    else if high < low then some above
    else if below.digits % 2 = 0 then some below else some above
  | true, false => some below
  | false, true => some above
  | false, false => none

/-- The decimal with the fewest significant digits that reads back as the positive number `q`.
Seventeen digits always suffice. -/
def shortest (q : Rat) : Decimal :=
  let top := decimalExponent q
  let found := (List.range 17).findSome? fun count : Nat => onGrid? q (top - (count : Int))
  (found.getD ⟨0, 0⟩).trimmed 20

/-! ## Layout -/

/-- The digits of a natural number. -/
def digitsText (n : Nat) : String := String.ofList (Nat.toDigits 10 n)

/-- A decimal with its point set: positional from `10 ^ -6` up to below `10 ^ 21`, with an exponent
otherwise. -/
def layout (d : Decimal) : String :=
  let digits := Nat.toDigits 10 d.digits
  let count : Int := digits.length
  -- the number of digits in front of the point; it may be negative
  let point := count + d.place
  let zeros (n : Int) : List Char := List.replicate n.toNat '0'
  if count ≤ point ∧ point ≤ 21 then String.ofList (digits ++ zeros (point - count))
  else if 0 < point ∧ point ≤ 21 then
    String.ofList (digits.take point.toNat ++ '.' :: digits.drop point.toNat)
  else if -6 < point ∧ point ≤ 0 then String.ofList ('0' :: '.' :: zeros (-point) ++ digits)
  else
    let fraction := if digits.length = 1 then [] else '.' :: digits.drop 1
    let sign := if point - 1 < 0 then '-' else '+'
    String.ofList (digits.take 1 ++ fraction ++ 'e' :: sign :: Nat.toDigits 10 (point - 1).natAbs)

/-- The text of a positive number. -/
def positiveText (q : Rat) : String :=
  if q.den = 1 ∧ q.num.natAbs ≤ exactBound then digitsText q.num.natAbs else layout (shortest q)

/-- The written form of a number; the special ones are written by name. -/
def text : Number → String
  | nan => "NaN"
  | infinity negative => if negative then "-Infinity" else "Infinity"
  | finite q =>
    if q = 0 then "0" else if q < 0 then "-" ++ positiveText (-q) else positiveText q

end Number

end BoundedJobs
