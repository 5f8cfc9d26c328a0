import BoundedJobs.Json.Token
import BoundedJobs.Text.Blank

/-!
# Numbers in plain text

Plain text writes numbers more freely than JSON does: with a sign of either kind, with zeros in
front of other digits, and with a point that needs digits on one side only.

* `Text.whole?` — the whole number that the whole of a text writes with a sign and digits only;
* `Text.written?`, `Written.value` — a number with a point and an exponent in its parts, as those
  need it who round in another way, and the number itself;
* `Text.number` — the number that a text stands for where a number is asked for. Blanks around it
  do not count and nothing else than blanks is zero; a whole number may be written in the bases
  2, 8 and 16, and infinity by name. Any other text is not a number.
-/

namespace BoundedJobs

namespace Text

/-- What the rest of a text writes, with the sign in front of it. -/
def signed? {α : Type} [Neg α] (unsigned? : List Char → Option α) : List Char → Option α
  | '-' :: rest => (unsigned? rest).map (- ·)
  | '+' :: rest => unsigned? rest
  | cs => unsigned? cs

/-- The whole number that a text of digits writes. -/
def digits? (cs : List Char) : Option Int :=
  if !cs.isEmpty && cs.all Json.isDigit then some (Json.decimalValue cs) else none

/-- The whole number that a text of digits and perhaps a sign writes. -/
def whole? (cs : List Char) : Option Int := signed? digits? cs

/-- The digits behind a point at the front of a text, and what follows them. -/
def fraction : List Char → List Char × List Char
  | '.' :: rest => (rest.takeWhile Json.isDigit, rest.dropWhile Json.isDigit)
  | rest => ([], rest)

/-- Digits with a point and an exponent: the digits on the two sides of the point, at least one in
all, and the power of ten that they are multiplied by. -/
structure Written where
  whole : List Char
  places : List Char
  exponent : Int

/-- The number that is written, rounded once. -/
def Written.value (w : Written) : Number :=
  Number.ofDecimal (Json.decimalValue (w.whole ++ w.places)) (w.exponent - w.places.length)

/-- What the whole of a text writes with a point and an exponent where there are any. -/
def written? (cs : List Char) : Option Written :=
  let whole := cs.takeWhile Json.isDigit
  let (places, rest) := fraction (cs.dropWhile Json.isDigit)
  if (whole ++ places).isEmpty then none
  else
    match Json.exponentPart? rest with
    | some (exponent, []) => some { whole, places, exponent }
    | _ => none

/-- The number that digits with a point and an exponent write. -/
def magnitude? (cs : List Char) : Option Number := (written? cs).map Written.value

/-- The base that a letter marks. -/
def base? (c : Char) : Option Nat :=
  if c = 'x' ∨ c = 'X' then some 16
  else if c = 'o' ∨ c = 'O' then some 8
  else if c = 'b' ∨ c = 'B' then some 2
  else none

/-- The natural number that digits of a base write. -/
def inBase? (base : Nat) (cs : List Char) : Option Nat :=
  if cs.isEmpty then none
  else cs.foldlM (fun n c => do
    let digit ← Json.hexValue? c
    if digit < base then some (n * base + digit) else none) 0

/-- The number that a zero, the letter of a base and digits of that base write. -/
def marked? : List Char → Option Number
  | '0' :: mark :: digits => do
    let base ← base? mark
    let n ← inBase? base digits
    return Number.ofNat n
  | _ => none

/-- An unsigned number, or infinity by name. -/
def nameOrMagnitude? (cs : List Char) : Option Number :=
  if cs = "Infinity".toList then some (.infinity false) else magnitude? cs

/-- The number that a text stands for where a number is asked for. -/
def number (s : String) : Number :=
  let cs := (trimmed s).toList
  if cs.isEmpty then 0
  else ((marked? cs).or (signed? nameOrMagnitude? cs)).getD .nan

end Text

end BoundedJobs
