import BoundedJobs.Number.Pair
import BoundedJobs.Text.Numeral

/-!
# Decimal numbers of a store

A store reads and writes decimal numbers with pairs of numbers instead of exact arithmetic. The
results are the nearest ones almost always, and where they are not, the other digit is what the
store keeps. So the arithmetic is part of the behaviour and is followed step by step.

* `Decimal.read?` — the number that a text writes: at most twenty digits are taken up, and a power
  of ten brings them to their place;
* `Decimal.text` — the text of a number, with fifteen digits: a power of ten brings it to a whole
  number of eighteen or nineteen digits, whose last ones are rounded away.
-/

namespace BoundedJobs

namespace History

namespace Decimal

/-! ## Reading -/

/-- A number that has reached this bound takes up no further digit. -/
def full : Nat := (Nat.pow 2 64 - 10) / 10

/-- A number behind which digits are put until it is full, with how many of them were taken. -/
def collect (n : Nat) : List Char → Nat × Nat
  | [] => (n, 0)
  | c :: cs =>
    if n < full then
      let (result, taken) := collect (10 * n + Json.decimalValue [c]) cs
      (result, taken + 1)
    else (n, 0)

/-- An exponent of more than five digits counts as ten thousand. -/
def capped (exponent : Int) : Int :=
  if exponent.natAbs ≤ 99999 then exponent else exponent.sign * 10000

/-- A number made longer by zeros as far as there is room and the exponent allows it, with the
exponent that is left. -/
def lengthened : Nat → Nat → Nat × Nat
  | 0, n => (n, 0)
  | exponent + 1, n =>
    if n < (Nat.pow 2 64 - 2048) / 10 then lengthened exponent (10 * n) else (n, exponent + 1)

/-- A number without the zeros at its end that a negative exponent takes away, with the size of the
exponent that is left. -/
def shortened : Nat → Nat → Nat × Nat
  | 0, n => (n, 0)
  | exponent + 1, n =>
    if n % 10 = 0 then shortened exponent (n / 10) else (n, exponent + 1)

/-- The number `n · 10 ^ exponent` as the store computes it. A number that grows too large on the
way is infinite. -/
def compute (n : Nat) (exponent : Int) : Number :=
  let (n, exponent) : Nat × Int :=
    if 0 ≤ exponent then
      let (n, rest) := lengthened exponent.toNat n
      (n, rest)
    else
      let (n, rest) := shortened exponent.natAbs n
      (n, -rest)
  -- no power of ten is left, so the whole number is taken as it is
  if exponent = 0 then Number.ofNat n
  else
    match ((Pair.ofNat n).shifted exponent).toNumber with
    -- infinite parts of the pair have cancelled each other
    | .nan => .infinity false
    | number => number

/-- The number that digits with a point and an exponent write. -/
def value (w : Text.Written) : Number :=
  let (whole, taken) := collect 0 w.whole
  let (digits, places) := collect whole w.places
  if digits = 0 then 0
  else compute digits (capped w.exponent + (w.whole.length - taken : Nat) - places)

/-- The number that the whole of a text writes. -/
def read? (cs : List Char) : Option Number :=
  Text.signed? (fun unsigned => (Text.written? unsigned).map value) cs

/-! ## Writing -/

/-- A positive number brought between about `10 ^ 18` and `10 ^ 19`, with the exponent of the power
of ten that brings it back. -/
def raised (n : Number) : Pair × Int :=
  let bound (exponent : Int) : Number := Number.ofDecimal 9223372036854774784 exponent
  if Number.lt (bound 0) n then
    -- steps of a hundred, of ten and of one, each as long as the bound allows
    let (x, hundreds) := Pair.tenTo100th.times (Number.lt (bound 100)) 4 (Pair.ofNumber n)
    let (x, tens) := Pair.tenTo10th.times (Number.lt (bound 10)) 12 x
    let (x, ones) := Pair.tenth.times (Number.lt (bound 0)) 12 x
    (x, 100 * hundreds + 10 * tens + ones)
  else
    let least : Number := Number.ofNat 922337203685477478
    let (x, hundreds) := Pair.tenTo100.times (Number.lt · (bound (-101))) 4 (Pair.ofNumber n)
    let (x, tens) := Pair.tenTo10.times (Number.lt · (bound (-11))) 12 x
    let (x, ones) := Pair.ten.times (Number.lt · least) 12 x
    (x, -(100 * hundreds + 10 * tens + ones))

/-- The first fifteen digits of a positive number, a half going up, with the exponent of the first
digit. -/
def fifteenDigits (n : Number) : Nat × Int :=
  let (x, exponent) := raised n
  let whole := x.toNat
  let length := (Nat.toDigits 10 whole).length
  let cut := Nat.pow 10 (length - 15)
  let digits := (2 * whole + cut) / (2 * cut)
  let top := exponent + length - 1
  -- rounding up has given a sixteenth digit
  if digits = Nat.pow 10 15 then (Nat.pow 10 14, top + 1) else (digits, top)

/-- Digits without the zeros at their end. -/
def withoutZeros (digits : List Char) : List Char := (digits.reverse.dropWhile (· = '0')).reverse

/-- The digits behind a point; there is at least one. -/
def places (digits : List Char) : List Char :=
  if (withoutZeros digits).isEmpty then ['0'] else withoutZeros digits

/-- The text of a positive number: it always has a point, and an exponent of at least two digits
below `10 ^ -4` and from `10 ^ 15` on. -/
def positiveText (n : Number) : String :=
  let (number, top) := fifteenDigits n
  let digits := Nat.toDigits 10 number
  -- too small or too large to be written without an exponent
  if top < -4 ∨ 14 < top then
    let exponent := Nat.toDigits 10 top.natAbs
    String.ofList (digits.take 1 ++ '.' :: places (digits.drop 1)
      ++ 'e' :: (if top < 0 then '-' else '+')
      :: (List.replicate (2 - exponent.length) '0' ++ exponent))
  else if top < 0 then
    String.ofList ('0' :: '.' :: places (List.replicate (-top - 1).toNat '0' ++ digits))
  else
    String.ofList (digits.take (top.toNat + 1) ++ '.' :: places (digits.drop (top.toNat + 1)))

/-- The text of a number. -/
def text (n : Number) : String :=
  match n with
  | .nan => ""
  | .infinity negative => if negative then "-Inf" else "Inf"
  | .finite q =>
    if q = 0 then "0.0" else if q < 0 then "-" ++ positiveText (-n) else positiveText n

end Decimal

end History

end BoundedJobs
