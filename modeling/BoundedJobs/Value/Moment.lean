import BoundedJobs.Timestamp.Reading
import BoundedJobs.Value.Numeric

/-!
# Values as moments

Where a moment is asked for, a text is read as a written moment, and so is the text of an object.
What has no parts counts as the number that it stands for.

* `Value.toMoment` — the moment that a value stands for; not a number where a text writes none.
  Symbols and unbounded integers are refused, and so is an object without a text.
-/

namespace BoundedJobs

namespace Value

/-- The moment that a value stands for. -/
def toMoment : Value → Except Fault Number
  | text written => .ok (Timestamp.ofText written)
  | convertible result => if result.isObject then .error noText else toMoment result
  | value => if value.isObject then Timestamp.ofText <$> value.spelled else value.toNumber

end Value

end BoundedJobs
