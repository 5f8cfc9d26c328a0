import BoundedJobs.History.Decimal
import BoundedJobs.Value.Basic

/-!
# Cells

A history stores rows of cells. What a cell holds depends on its column as well as on what is put
into it: a column for numbers turns a text that writes a number into that number and keeps any
other text, a column for texts turns a number into its text.

* `Cell` — nothing, a whole number of 64 bits, any other number, or a text;
* `Cell.forNumbers`, `Cell.forTexts` — what a cell becomes in a column of either kind;
* `Cell.lt` — the order of cells: numbers by their exact size, then texts by their characters; the
  empty cell is not compared;
* `Cell.value`, `Cell.amount` — what is read from a cell: the value itself, and the number that it
  counts as. A whole number is rounded on the way out.
-/

namespace BoundedJobs

namespace History

/-- What one column of a row holds. -/
inductive Cell where
  | empty
  | integer (value : Int)
  | real (value : Number)
  | text (value : String)
  deriving DecidableEq, Inhabited

namespace Cell

/-! ## Columns -/

/-- Whether 64 bits hold a whole number. -/
def fits (i : Int) : Bool := -((Nat.pow 2 63 : Nat) : Int) ≤ i && i < ((Nat.pow 2 63 : Nat) : Int)

/-- A number in a column for numbers: a whole number that lies well inside 64 bits is kept as
one. -/
def ofNumber (n : Number) : Cell :=
  match n.int? with
  | some i => if i.natAbs < Nat.pow 2 63 then integer i else real n
  | none => real n

/-- The blanks that may stand around a number in a cell. -/
def isBlank (c : Char) : Bool := c = ' ' || (0x09 ≤ c.toNat && c.toNat ≤ 0x0D)

/-- A text without the blanks at its two ends. -/
def trimmed (s : String) : List Char :=
  ((s.toList.dropWhile isBlank).reverse.dropWhile isBlank).reverse

/-- The number that a text writes, if it writes one. -/
def ofText? (s : String) : Option Cell :=
  match (Text.whole? (trimmed s)).filter fits with
  | some i => some (integer i)
  | none => (Decimal.read? (trimmed s)).map ofNumber

/-- What a cell becomes in a column for numbers. -/
def forNumbers : Cell → Cell
  | real n => ofNumber n
  | text s => (ofText? s).getD (text s)
  | other => other

/-- What a cell becomes in a column for texts; only the empty cell is none. -/
def forTexts : Cell → Option String
  | empty => none
  | integer i => some (toString i)
  | real n => some (Decimal.text n)
  | text s => some s

/-! ## Comparing and reading -/

/-- The exact number in a cell. -/
def number? : Cell → Option Number
  | integer i => some (.finite i)
  | real n => some n
  | _ => none

/-- Whether the first cell is below the second. -/
def lt : Cell → Cell → Bool
  | empty, _ => false
  | _, empty => false
  | text a, text b => a < b
  | text _, _ => false
  | _, text _ => true
  | a, b =>
    match a.number?, b.number? with
    | some a, some b => Number.lt a b
    | _, _ => false

/-- The value that is read from a cell. -/
def value : Cell → Value
  | empty => .null
  | integer i => .number (Number.ofInt i)
  | real n => .number n
  | text s => .text s

/-- The number that a cell counts as. -/
def amount : Cell → Number
  | empty => 0
  | integer i => Number.ofInt i
  | real n => n
  | text s => Text.number s

end Cell

end History

end BoundedJobs
