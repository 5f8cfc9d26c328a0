import BoundedJobs.Value.Text

/-!
# Shapes of data

Data from outside — an answer of docker, a stored run, a number given as text — are checked before
they are used. A check never stops at the first thing that is wrong: it collects one issue for
each offending place, in the order in which the shape lists its fields.

* `Shape.Problem`, `Shape.Issue` — what is wrong, and where;
* `Shape.Checked` — a checked value or the issues; `Checked.both`, `Checked.under` and
  `Checked.each` put checks together;
* `Shape.string`, `Shape.number`, `Shape.integer` — the simple shapes;
* `Shape.demand` — a check as a demand, whose failure is one `ValidationError` that lists the
  issues.
-/

namespace BoundedJobs

section

variable {τ : Type}

/-- The name of the type of a value, as it stands in an issue. -/
def Value.typeName : Value τ → String
  | .absent => "undefined"
  | .null => "null"
  | .bool _ => "boolean"
  | .number n => if n = .nan then "nan" else "number"
  | .integer _ => "bigint"
  | .symbol _ => "symbol"
  | .text _ => "string"
  | .array _ | .loop _ => "array"
  | .map => "map"
  | _ => "object"

/-- The value of a field: absent when the value shows no such field. An error object shows its
name. -/
def Value.field [DecidableEq τ] [Wording τ] (name : String) : Value τ → Value τ
  | .object fields | .bare fields =>
    (Json.lookupLast (Wording.ofString name : τ) fields).getD .absent
  | .fault kind _ _ => if name = "name" then .text (Wording.ofString kind.name) else .absent
  | .messaged _ | .unreadable _ =>
    if name = "name" then .text (Wording.ofString "Error") else .absent
  | _ => .absent

end

namespace Shape

/-- What can be wrong with a value. -/
inductive Problem where
  | required
  | wrongType (expected received : String)
  | wrongChoice (received : String)
  | fractional
  | notDigits
  | notPositive
  | tooLarge
  /-- The value cannot be looked at. -/
  | refused
  deriving DecidableEq

/-- The names of the two states of an outcome, as an issue lists them. -/
def choices : String := "'ok' | 'failed'"

/-- The wording of a problem. -/
def Problem.message : Problem → String
  | required => "Required"
  | wrongType expected received => "Expected " ++ expected ++ ", received " ++ received
  | wrongChoice received =>
    "Invalid enum value. Expected " ++ choices ++ ", received '" ++ received ++ "'"
  | fractional => "Expected integer, received float"
  | notDigits => "must be an integer"
  | notPositive => "Number must be greater than 0"
  | tooLarge => "Number must be less than or equal to 9007199254740991"
  | refused => ""

/-- A problem and the way to it from the whole value. -/
structure Issue where
  path : List String
  problem : Problem
  deriving DecidableEq

/-- The wording of an issue: the way to the place, where there is one, and the problem. -/
def Issue.text (issue : Issue) : String :=
  if issue.path.isEmpty then issue.problem.message
  else ".".intercalate issue.path ++ ": " ++ issue.problem.message

/-- A checked value, or all issues found. -/
abbrev Checked (α : Type) := Except (List Issue) α

section

variable {τ : Type}

namespace Checked

variable {α β : Type}

/-- One problem at the place itself. -/
def fail (problem : Problem) : Checked α := .error [⟨[], problem⟩]

/-- Two checks side by side; the issues of the first come first. -/
def both (first : Checked α) (second : Checked β) : Checked (α × β) :=
  match first, second with
  | .ok a, .ok b => .ok (a, b)
  | .ok _, .error issues => .error issues
  | .error issues, .ok _ => .error issues
  | .error issues, .error more => .error (issues ++ more)

/-- A check of something that lies one step further in. -/
def under (step : String) : Checked α → Checked α
  | .ok a => .ok a
  | .error issues => .error (issues.map fun issue => { issue with path := step :: issue.path })

/-- A check of every item of an array, the items being numbered from `start`. -/
def eachFrom (check : Value τ → Checked α) (start : Nat) : List (Value τ) → Checked (List α)
  | [] => .ok []
  | item :: items =>
    match both (under (toString start) (check item)) (eachFrom check (start + 1) items) with
    | .ok (first, others) => .ok (first :: others)
    | .error issues => .error issues

end Checked

variable {α : Type}

/-- The problem of a value that is not of the expected type. -/
def mismatch (expected : String) (value : Value τ) : Checked α :=
  match value with
  | .absent => .fail .required
  | .revoked => .fail .refused
  | _ => .fail (.wrongType expected value.typeName)

/-- A text. -/
def string (value : Value τ) : Checked τ :=
  match value with
  | .text s => .ok s
  | _ => mismatch "string" value

/-- Any number but "not a number". -/
def number (value : Value τ) : Checked Number :=
  match value with
  | .number n => if n = .nan then mismatch "number" value else .ok n
  | _ => mismatch "number" value

/-- A whole number. -/
def integer (value : Value τ) : Checked Int := do
  let n ← number value
  match n.int? with
  | some i => return i
  | none => .fail .fractional

/-- Every item of an array. -/
def arrayOf (check : Value τ → Checked α) (value : Value τ) : Checked (List α) :=
  match value with
  | .array items => Checked.eachFrom check 0 items
  | _ => mismatch "array" value

/-- Any object, whose fields are then checked by `fields`. -/
def objectWith (fields : Value τ → Checked α) (value : Value τ) : Checked α :=
  match value with
  | .revoked => .fail .refused
  | _ => if value.typeName = "object" then fields value else mismatch "object" value

variable [DecidableEq τ] [Wording τ]

/-- A field that must have a shape. -/
def field (name : String) (check : Value τ → Checked α) (value : Value τ) : Checked α :=
  Checked.under name (check (value.field name))

/-- A field that may be missing, with what stands for it then. -/
def fieldOr (name : String) (default : α) (check : Value τ → Checked α) (value : Value τ) :
    Checked α :=
  match value.field name with
  | .absent => .ok default
  | given => Checked.under name (check given)

end

/-- The error for data that do not have the shape of `what`. -/
def fault (what : String) (issues : List Issue) : Fault :=
  if issues.any (·.problem = .refused) then Value.noAccess
  else
    { kind := .validation,
      message := "Invalid " ++ what ++ ": " ++ "; ".intercalate (issues.map Issue.text) }

/-- A check that has to succeed. -/
def demand {α : Type} (what : String) (checked : Checked α) : Except Fault α :=
  match checked with
  | .ok value => .ok value
  | .error issues => .error (fault what issues)

end Shape

end BoundedJobs
