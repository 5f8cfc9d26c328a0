import BoundedJobs.Json.Token
import BoundedJobs.Text.Blank

/-!
# The parts of a written moment

A written moment consists of numbers, words and marks. The words that mean something are the months,
which may be written out, the halves of the day, the names of time zones, and the letter between a
date and a time of day.

* `Timestamp.Word`, `Timestamp.Token` — what a word means, and the parts;
* `Timestamp.tokens` — the parts of a text. A remark in parentheses is a part without a meaning,
  and a zero character ends the text.
-/

namespace BoundedJobs

namespace Timestamp

/-- What a word means. -/
inductive Word where
  | month (number : Nat)
  /-- A half of the day, with the hour at which it begins. -/
  | half (start : Nat)
  /-- A time zone, with the hours that it is ahead of universal time. -/
  | zone (ahead : Int)
  /-- The mark in front of a time of day. -/
  | time
  | other
  deriving DecidableEq

/-- A part of a written moment. -/
inductive Token where
  /-- A number, with the count of its digits. -/
  | number (value length : Nat)
  | sign (negative : Bool)
  | colon
  | point
  /-- A closing parenthesis that none was open for. -/
  | close
  | word (meaning : Word) (length : Nat)
  | blank
  | other
  deriving DecidableEq

/-! ## Words -/

/-- The first three letters of the months. -/
def months : List String :=
  ["jan", "feb", "mar", "apr", "may", "jun", "jul", "aug", "sep", "oct", "nov", "dec"]

/-- The words of at most three letters that mean something. -/
def shortWords : List (String × Word) :=
  [("am", .half 0), ("pm", .half 12), ("ut", .zone 0), ("utc", .zone 0), ("z", .zone 0),
   ("gmt", .zone 0), ("cdt", .zone (-5)), ("cst", .zone (-6)), ("edt", .zone (-4)),
   ("est", .zone (-5)), ("mdt", .zone (-6)), ("mst", .zone (-7)), ("pdt", .zone (-7)),
   ("pst", .zone (-8)), ("t", .time)]

/-- What letters mean. A month may have more than three of them, and large letters mean what small
ones do. -/
def Word.ofLetters (letters : List Char) : Word :=
  let name := String.ofList ((letters.take 3).map Char.toLower)
  match months.idxOf? name with
  | some place => .month (place + 1)
  | none => if letters.length ≤ 3 then (shortWords.lookup name).getD .other else .other

/-! ## Cutting a text -/

/-- Whether a character is the line or the paragraph separator. -/
def isSeparator (c : Char) : Bool := c = '\u2028' || c = '\u2029'

/-- Whether a character belongs to a word: it lies from the letter `A` upwards and is no blank. The
separators of lines and paragraphs, blank elsewhere, belong to words. -/
def isLetter (c : Char) : Bool := 'A' ≤ c && (isSeparator c || !Text.isBlank c)

/-- The number that digits write; after nine digits that count the others do not. -/
def numeral (digits : List Char) : Nat :=
  Json.decimalValue ((digits.dropWhile (· = '0')).take 9)

/-- What follows a remark of which `depth` parentheses are open. -/
def afterRemark : Nat → List Char → List Char
  | 0, cs => cs
  | _, [] => []
  | depth + 1, '(' :: cs => afterRemark (depth + 2) cs
  | depth + 1, ')' :: cs => afterRemark depth cs
  | depth + 1, _ :: cs => afterRemark (depth + 1) cs

/-- The part that a single character is, outside numbers and words. -/
def markOf (c : Char) : Token :=
  if c = ':' then .colon
  else if c = '.' then .point
  else if c = '-' then .sign true
  else if c = '+' then .sign false
  else if c = ')' then .close
  else if Text.isBlank c then .blank
  else .other

/-- The parts of a text; every part takes at least one character, so `fuel` need not exceed the
number of characters. -/
def tokensWithin : Nat → List Char → List Token
  | 0, _ => []
  | _, [] => []
  | fuel + 1, c :: rest =>
    if Json.isDigit c then
      let digits := c :: rest.takeWhile Json.isDigit
      .number (numeral digits) digits.length :: tokensWithin fuel (rest.dropWhile Json.isDigit)
    else if isLetter c then
      let letters := c :: rest.takeWhile isLetter
      .word (.ofLetters letters) letters.length :: tokensWithin fuel (rest.dropWhile isLetter)
    else if c = '(' then .other :: tokensWithin fuel (afterRemark 1 rest)
    else markOf c :: tokensWithin fuel rest

/-- The parts of a text up to its first zero character. -/
def tokens (s : String) : List Token :=
  let cs := s.toList.takeWhile fun c => c.toNat ≠ 0
  tokensWithin cs.length cs

end Timestamp

end BoundedJobs
