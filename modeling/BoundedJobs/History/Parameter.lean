import BoundedJobs.History.Cell
import BoundedJobs.Value.Text

/-!
# Parameters of a statement

A statement has a fixed number of places, and values are given for them in their order. A value
fills one place, an array as many as it has items, and a plain object none: its fields are for
places with names, which no statement has.

* `Cell.ofValue` — the cell that a value fills a place with. Numbers, texts and the two empty
  values fill one; whole numbers have to fit into 64 bits;
* `Filling.bound` — the cells for all places, refused when they are too few or too many.
-/

namespace BoundedJobs

namespace History

/-- The refusal of a value that no place can hold. -/
def unstorable : Fault :=
  Fault.wrongType "SQLite3 can only bind numbers, strings, bigints, buffers, and null"

/-- The refusal of a whole number that is too large for a place. -/
def tooBig : Fault :=
  { kind := .range, message := "The bound string, buffer, or bigint is too big" }

/-- The refusal of values that leave places open. -/
def tooFew : Fault := { kind := .range, message := "Too few parameter values were provided" }

/-- The refusal of values for which there are no places left. -/
def tooMany : Fault := { kind := .range, message := "Too many parameter values were provided" }

/-- The refusal of a second plain object. -/
def namedTwice : Fault :=
  Fault.wrongType "You cannot specify named parameters in two different objects"

/-- The cell that a value fills a place with. -/
def Cell.ofValue : Value → Except Fault Cell
  | .absent | .null => .ok .empty
  | .number n => .ok (if n = .nan then .empty else .real n)
  | .integer i => if fits i then .ok (.integer i) else .error tooBig
  | .text s => .ok (.text s)
  | _ => .error unstorable

/-- Whether the fields of a value are for places with names. -/
def isNamed : Value → Bool
  | .object _ | .bare _ | .tagged .. | .convertible _ | .unprintable _ | .revoked => true
  | _ => false

/-- The places that have been filled, and whether a plain object has been given. -/
structure Filling where
  cells : List Cell := []
  hasNamed : Bool := false

namespace Filling

/-- One more place is filled. -/
def put (places : Nat) (f : Filling) (value : Value) : Except Fault Filling := do
  let cell ← Cell.ofValue value
  if f.cells.length < places then return { f with cells := f.cells ++ [cell] }
  else throw tooMany

/-- One more value is given. -/
def add (places : Nat) (f : Filling) (value : Value) : Except Fault Filling :=
  match value with
  | .array items => items.foldlM (put places) f
  | _ =>
    if isNamed value then
      if f.hasNamed then .error namedTwice else .ok { f with hasNamed := true }
    else put places f value

/-- The cells for all places of a statement. -/
def bound (places : Nat) (values : List Value) : Except Fault (List Cell) := do
  let filling ← values.foldlM (add places) {}
  if filling.cells.length < places then throw tooFew
  else return filling.cells

end Filling

end History

end BoundedJobs
