import BoundedJobs.Text.Numeral
import BoundedJobs.Value.Text

/-!
# Values as numbers and as names

Where a number is asked for, most values stand for one: the truth values for zero and one, a text
for the number it writes, an object for the number that its text writes. Where a name is asked
for, every value is named by its text, and a symbol names nothing that a text names.

* `Value.toNumber` — the number that a value stands for. An unbounded integer is refused here;
* `Value.extent` — the same for a value that is only compared, where an unbounded integer counts
  exactly;
* `Value.propertyName` — the name that a value is when it is used as one.
-/

namespace BoundedJobs

namespace Value

/-- The use of an unbounded integer as a number was refused. -/
def noRounding : Fault := Fault.wrongType "Cannot convert a BigInt value to a number"

/-- The use of a symbol as a number was refused. -/
def noSymbolNumber : Fault := Fault.wrongType "Cannot convert a Symbol value to a number"

/-- The number that a value stands for, when an unbounded integer stands for what `whole` says. -/
def numberWith (whole : Int → Except Fault Number) : Value → Except Fault Number
  | absent => .ok .nan
  | null => .ok 0
  | bool value => .ok (if value then 1 else 0)
  | number value => .ok value
  | integer value => whole value
  | symbol _ => .error noSymbolNumber
  | text value => .ok (Text.number value)
  | convertible result => if result.isObject then .error noText else numberWith whole result
  | value => Text.number <$> value.spelled

/-- The number that a value stands for. -/
def toNumber (value : Value) : Except Fault Number := value.numberWith fun _ => .error noRounding

/-- The exact size of a value that is compared with a number. -/
def extent (value : Value) : Except Fault Number := value.numberWith fun i => .ok (.finite i)

/-- The name that a value is when something is looked up under it; a symbol is none of the names
that texts are. -/
def propertyName : Value → Except Fault (Option String)
  | symbol _ => .ok none
  | convertible (symbol _) => .ok none
  | value => some <$> value.spelled

end Value

end BoundedJobs
