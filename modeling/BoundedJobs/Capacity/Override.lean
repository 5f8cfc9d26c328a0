import BoundedJobs.Shape
import BoundedJobs.Json.Token

/-!
# A cap given as text

The environment and the command line give the cap as text: an optional plus sign and decimal
digits, and nothing else. The number must lie between 1 and 2 ^ 53 - 1.

* `Capacity.overrideShape` — the shape, with an issue for everything that is wrong with a text;
* `Capacity.override?` — the cap that a text gives, nothing for an empty or unusable one.
-/

namespace BoundedJobs

namespace Capacity

/-- The digits of a text that is an optional plus sign and at least one decimal digit. -/
def digits? (text : String) : Option (List Char) :=
  let digits :=
    match text.toList with
    | '+' :: rest => rest
    | whole => whole
  if !digits.isEmpty && digits.all Json.isDigit then some digits else none

/-- The greatest number below which all whole numbers are numbers of the set. -/
def safeBound : Number := Number.ofNat (Nat.pow 2 53 - 1)

/-- A number that must be a positive whole number up to `safeBound`; all that is wrong is listed. -/
def positive (n : Number) : Shape.Checked Number :=
  let fractional := if n.isInteger then [] else [⟨[], .fractional⟩]
  let notPositive := if Number.lt 0 n then [] else [⟨[], .notPositive⟩]
  let tooLarge := if Number.le n safeBound then [] else [⟨[], .tooLarge⟩]
  let issues : List Shape.Issue := fractional ++ notPositive ++ tooLarge
  if issues.isEmpty then .ok n else .error issues

/-- The shape of a cap given as text. -/
def overrideShape (value : Value) : Shape.Checked Number := do
  let text ← Shape.string value
  match digits? text with
  | none => .fail .notDigits
  | some digits => positive (Number.ofNat (Json.decimalValue digits))

/-- The cap that a text gives. -/
def override? (text : String) : Option Number :=
  if text.isEmpty then none else (overrideShape (.text text)).toOption

end Capacity

end BoundedJobs
