import BoundedJobs.Number.Basic

/-!
# Pairs of numbers

The sum of two numbers, the second far smaller than the first, holds twice as many digits as one
number does. A pair stands for such a sum: `high` is the number nearest to it and `low` is what is
missing. Multiplying pairs keeps the rounding error of the product of the two high parts in the low
part of the result, so that a long chain of products stays close to the exact one, although every
single operation is one on numbers.

* `Number.leading` — the front half of the digits of a number. The product of two such halves is
  exact, which is what makes the error of a product computable;
* `Pair.ofNumber`, `Pair.ofNat`, `Pair.ofDecimals` — pairs from numbers, natural numbers and
  decimals;
* `*` on pairs, `Pair.scaled`, `Pair.times` — the product, the product with a factor taken several
  times, and with a factor taken as long as the high part asks for it;
* `Pair.shifted` — the product with a power of ten;
* `Pair.toNumber`, `Pair.toNat` — what a pair stands for.
-/

namespace BoundedJobs

namespace Number

/-- A number without the last 26 of its 53 binary digits. -/
def leading : Number → Number
  | finite q =>
    let (digits, place) := significand q.num.natAbs q.den
    let kept : Int := (if q.num < 0 then -1 else 1) * (digits / Nat.pow 2 26 : Nat)
    if 0 ≤ place + 26 then finite (kept * (Nat.pow 2 (place + 26).toNat : Nat) : Int)
    else finite (mkRat kept (Nat.pow 2 (-place - 26).toNat))
  | other => other

end Number

/-- Two numbers that stand for their sum. -/
structure Pair where
  high : Number
  low : Number

namespace Pair

/-- A single number. -/
def ofNumber (n : Number) : Pair := { high := n, low := 0 }

/-- A natural number below `2 ^ 64`. When the number nearest to it is `2 ^ 64` itself, nothing is
kept of the difference. -/
def ofNat (n : Nat) : Pair :=
  let high := Number.ofNat n
  match high.int? with
  | some i => { high, low := if i < (Nat.pow 2 64 : Nat) then Number.ofInt (n - i) else 0 }
  | none => ofNumber high

/-- The number nearest to `digits · 10 ^ exponent`, and the number nearest to `low · 10 ^ lowest`
as what is missing. -/
def ofDecimals (digits : Nat) (exponent : Int) (low : Int) (lowest : Int) : Pair :=
  let rest := Number.ofDecimal low.natAbs lowest
  { high := Number.ofDecimal digits exponent, low := if low < 0 then -rest else rest }

/-- The product. Each of the high parts is split into its leading part and a rest; the exact
product of the parts tells what rounding took away. -/
def mul (x y : Pair) : Pair :=
  let xTop := x.high.leading
  let xRest := x.high - xTop
  let yTop := y.high.leading
  let yRest := y.high - yTop
  let top := xTop * yTop
  let middle := xTop * yRest + xRest * yTop
  let sum := top + middle
  let lost := top - sum + middle + xRest * yRest
  let low := x.high * y.low + x.low * y.high + lost
  let high := sum + low
  { high, low := sum - high + low }

instance : Mul Pair := ⟨mul⟩

/-- A pair multiplied `count` times by a factor. -/
def scaled (factor : Pair) : Nat → Pair → Pair
  | 0, x => x
  | count + 1, x => scaled factor count (x * factor)

/-- A pair multiplied by a factor as long as its high part asks for it, at most `fuel` times,
with the number of times. -/
def times (factor : Pair) (more : Number → Bool) : Nat → Pair → Pair × Nat
  | 0, x => (x, 0)
  | fuel + 1, x =>
    if more x.high then
      let (y, count) := times factor more fuel (x * factor)
      (y, count + 1)
    else (x, 0)

/-- The number that a pair stands for. -/
def toNumber (x : Pair) : Number := x.high + x.low

/-- The natural number that a pair stands for, when each part is cut down to a whole number. -/
def toNat (x : Pair) : Nat :=
  ((x.high.truncated?.getD 0) + (x.low.truncated?.getD 0)).toNat

/-! ## Powers of ten -/

def ten : Pair := ofNumber 10

def tenTo10 : Pair := ofNumber (Number.ofDecimal 1 10)

def tenTo100 : Pair := ofDecimals 1 100 (-15902891109759918046) 64

def tenth : Pair := ofDecimals 1 (-1) (-55511151231257827021) (-37)

def tenTo10th : Pair := ofDecimals 1 (-10) (-36432197315497741579) (-46)

def tenTo100th : Pair := ofDecimals 1 (-100) (-199918998026028836196) (-137)

/-- A pair multiplied by a power of ten, in steps of a hundred, ten and one. -/
def shifted (exponent : Int) (x : Pair) : Pair :=
  let size := exponent.natAbs
  let (hundreds, tens, ones) := (size / 100, size % 100 / 10, size % 10)
  if 0 ≤ exponent then
    ten.scaled ones (tenTo10.scaled tens (tenTo100.scaled hundreds x))
  else
    tenth.scaled ones (tenTo10th.scaled tens (tenTo100th.scaled hundreds x))

end Pair

end BoundedJobs
