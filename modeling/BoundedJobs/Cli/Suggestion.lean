/-!
# Suggestions for misspelt words

A word that is not known is answered with the known words that come closest to it. Closeness is
the least number of insertions, deletions, substitutions and exchanges of neighbours that lead
from one word to the other, where no part is changed twice; lengths are counted in UTF-16 units.

* `Suggestion.distance` — that number; for words whose lengths differ by more than three it is not
  counted, and the greater length stands for it;
* `Suggestion.closest` — the known words at the least distance, if that is at most three and small
  against the length of the words;
* `Suggestion.text` — the line that is added to an error.
-/

namespace BoundedJobs

namespace Suggestion

/-- The UTF-16 units of a text. -/
def units (s : String) : List Nat :=
  s.toList.flatMap fun c =>
    if c.toNat < 0x10000 then [c.toNat]
    else [0xD800 + (c.toNat - 0x10000) / 0x400, 0xDC00 + (c.toNat - 0x10000) % 0x400]

/-- The next row of the table of distances, column by column. `aboveLeft` and `left` are the
entries before the column in the row above and in this row. `behind` is the unit of `b` before the
column, with the entry two rows above that an exchange starts from. -/
def rowFrom (unit : Nat) (previous : Option Nat) (aboveLeft left : Nat)
    (behind : Option (Nat × Nat)) :
    List Nat → List Nat → List Nat → List Nat
  | other :: others, above :: row, twoAbove :: rowBefore =>
    let cost := if unit = other then 0 else 1
    let plain := min (min (above + 1) (left + 1)) (aboveLeft + cost)
    let entry :=
      match previous, behind with
      | some previous, some (before, exchanged) =>
        if unit = before ∧ previous = other then min plain (exchanged + 1) else plain
      | _, _ => plain
    entry :: rowFrom unit previous above entry (some (other, twoAbove)) others row rowBefore
  | _, _, _ => []

/-- The rows of the table of distances one after the other; a row holds the distances of one
beginning of the first word to all beginnings of `b`. -/
def table (b : List Nat) (previous : Option Nat) (before row : List Nat) : List Nat → List Nat
  | [] => row
  | unit :: rest =>
    let first := row.head?.getD 0
    let next := (first + 1) :: rowFrom unit previous first (first + 1) none b row.tail before
    table b (some unit) row next rest

/-- The distance of two words. -/
def distance (a b : List Nat) : Nat :=
  if a.length + 3 < b.length ∨ b.length + 3 < a.length then max a.length b.length
  else
    let start := List.range (b.length + 1)
    ((table b none start start a).getLast?).getD 0

/-- Whether a distance is small against the greater length of two words. -/
def isSimilar (length distance : Nat) : Bool := 4 * length < 10 * (length - distance)

/-- The candidates at the least distance from a word, in alphabetical order. -/
def closest (word : String) (candidates : List String) : List String :=
  let long := candidates.eraseDups.filter fun c => 1 < (units c).length
  let measured := long.filterMap fun candidate =>
    let d := distance (units word) (units candidate)
    let length := max (units word).length (units candidate).length
    if isSimilar length d && d ≤ 3 then some (d, candidate) else none
  let least := measured.foldl (fun best entry => min best entry.1) 3
  ((measured.filter (·.1 = least)).map (·.2)).mergeSort fun a b => a ≤ b

/-- The line that suggests known words in place of `word`. Long options are compared without their
dashes. -/
def text (word : String) (candidates : List String) : String :=
  let isLong := word.startsWith "--"
  let bare (s : String) : String := if isLong then String.ofList (s.toList.drop 2) else s
  let found :=
    (closest (bare word) (candidates.map bare)).map fun s => if isLong then "--" ++ s else s
  match found with
  | [] => ""
  | [one] => "\n(Did you mean " ++ one ++ "?)"
  | several => "\n(Did you mean one of " ++ ", ".intercalate several ++ "?)"

end Suggestion

end BoundedJobs
