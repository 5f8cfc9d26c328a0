/-!
# Numbers

Every number of the system — a slot count, a clock reading, a duration — is a number of the
*binary64* set: the rationals `m · 2 ^ k` with `|m| < 2 ^ 53` and `-1074 ≤ k ≤ 971`, two
infinities and one value for "not a number". A finite number is held as the exact rational it
stands for, so an operation is the operation on rationals followed by one rounding:

* `Number.nearest` — the member of the set nearest to a rational, a tie going to the even
  significand, and an infinity when the magnitude is too large;
* `Number.ofInt`, `Number.ofNat`, `Number.ofDecimal` — numbers from the written forms;
* `+`, `-`, `*` — exact on the rationals, then rounded; the infinities follow the usual rules;
* `Number.lt`, `Number.le` — comparisons, false as soon as one side is not a number;
* `Number.floor`, `Number.isInteger`, `Number.positiveNat?` — what the rest of the library asks.

Positive and negative zero are one number here. They compare as equal and are written alike; only a
test for identity could tell them apart, and the library makes none.
-/

namespace BoundedJobs

/-- A number of the binary64 set; a finite one is the rational it stands for. -/
inductive Number where
  | finite (value : Rat)
  | infinity (negative : Bool)
  | nan
  deriving DecidableEq, Inhabited

namespace Number

/-! ## Rounding to the nearest number -/

/-- The quotient `num / den` rounded to a whole number, a tie going to the even neighbour. -/
def roundQuotient (num den : Nat) : Nat :=
  let low := num / den
  let rest := num % den
  if 2 * rest < den then low
  else if den < 2 * rest then low + 1
  else if low % 2 = 0 then low else low + 1

/-- The exponent `e` with `2 ^ e ≤ num / den < 2 ^ (e + 1)`, for positive `num` and `den`. -/
def binaryExponent (num den : Nat) : Int :=
  let guess : Int := (num.log2 : Int) - (den.log2 : Int)
  let reached : Bool :=
    if 0 ≤ guess then den * Nat.pow 2 guess.toNat ≤ num
    else den ≤ num * Nat.pow 2 (-guess).toNat
  if reached then guess else guess - 1

/-- The whole numbers up to here are all members of the set. -/
def exactBound : Nat := Nat.pow 2 53

/-- The magnitude `num / den` on the grid of its 53-bit significands: the whole significand and the
exponent of its last place, which never goes below that of the smallest positive number. -/
def significand (num den : Nat) : Nat × Int :=
  let place := max (binaryExponent num den - 52) (-1074)
  if 0 ≤ place then (roundQuotient num (den * Nat.pow 2 place.toNat), place)
  else (roundQuotient (num * Nat.pow 2 (-place).toNat) den, place)

/-- The member of the set nearest to `q`. A whole number up to `exactBound` is its own nearest
member and is not searched for. -/
def nearest (q : Rat) : Number :=
  if q.den = 1 ∧ q.num.natAbs ≤ exactBound then finite q
  else
    let (digits, place) := significand q.num.natAbs q.den
    let sign : Int := if q.num < 0 then -1 else 1
    if 0 ≤ place then
      let magnitude := digits * Nat.pow 2 place.toNat
      if Nat.pow 2 1024 ≤ magnitude then infinity (q.num < 0)
      else finite (sign * (magnitude : Int) : Int)
    else finite (mkRat (sign * (digits : Int)) (Nat.pow 2 (-place).toNat))

/-- The number nearest to a whole number. -/
def ofInt (i : Int) : Number := nearest (i : Rat)

/-- The number nearest to a natural number. -/
def ofNat (n : Nat) : Number := ofInt (n : Int)

instance (n : Nat) : OfNat Number n := ⟨ofNat n⟩

/-- The number nearest to `digits · 10 ^ exponent`. Magnitudes far outside the set are answered
without computing the power. -/
def ofDecimal (digits : Nat) (exponent : Int) : Number :=
  if digits = 0 then finite 0
  else
    let length : Int := (Nat.toDigits 10 digits).length
    if 400 < exponent + length then infinity false
    else if exponent + length < -400 then finite 0
    else if 0 ≤ exponent then ofNat (digits * Nat.pow 10 exponent.toNat)
    else nearest (mkRat (digits : Int) (Nat.pow 10 (-exponent).toNat))

/-! ## Arithmetic and order -/

def neg : Number → Number
  | finite q => finite (-q)
  | infinity negative => infinity !negative
  | nan => nan

instance : Neg Number := ⟨neg⟩

/-- The sum. Opposite infinities have none. -/
def add : Number → Number → Number
  | finite a, finite b => nearest (a + b)
  | nan, _ => nan
  | _, nan => nan
  | infinity a, infinity b => if a = b then infinity a else nan
  | infinity a, finite _ => infinity a
  | finite _, infinity b => infinity b

instance : Add Number := ⟨add⟩

instance : Sub Number := ⟨fun a b => a + -b⟩

/-- Whether a number has a minus sign. -/
def isNegative : Number → Bool
  | finite q => q < 0
  | infinity negative => negative
  | nan => false

/-- The product. Zero and an infinity have none. -/
def mul : Number → Number → Number
  | finite a, finite b => nearest (a * b)
  | a, b =>
    if a = nan ∨ b = nan ∨ a = finite 0 ∨ b = finite 0 then nan
    else infinity (a.isNegative != b.isNegative)

instance : Mul Number := ⟨mul⟩

/-- Whether the first number is below the second. -/
def lt : Number → Number → Bool
  | finite a, finite b => a < b
  | nan, _ => false
  | _, nan => false
  | infinity a, infinity b => a && !b
  | infinity negative, finite _ => negative
  | finite _, infinity negative => !negative

/-- Whether the first number is not above the second; never when one side is not a number. -/
def le (a b : Number) : Bool := lt a b || (a == b && a != nan)

/-- The greater of two numbers; not a number as soon as one of them is not. -/
def max (a b : Number) : Number :=
  if a = nan ∨ b = nan then nan else if lt a b then b else a

/-- The greatest whole number that is not above. -/
def floor : Number → Number
  | finite q => nearest (q.floor : Rat)
  | other => other

/-- The whole number that the number is, if it is one. -/
def int? : Number → Option Int
  | finite q => if q.den = 1 then some q.num else none
  | _ => none

def isInteger (a : Number) : Bool := a.int?.isSome

/-- The positive whole number that the number is, if it is one. -/
def positiveNat? (a : Number) : Option Nat :=
  match a.int? with
  | some i => if 0 < i then some i.toNat else none
  | none => none

/-- The whole number that is left when the fraction is cut off, for a finite number. -/
def truncated? : Number → Option Int
  | finite q => some (q.num.tdiv q.den)
  | _ => none

end Number

end BoundedJobs
