import BoundedJobs.Json.Basic

/-!
# The tokens of a JSON text

A JSON text is a sequence of marks, strings, numbers and the three names, with blanks between
them. The blanks are the space, the tab and the two line ends, and nothing else is.

* `Token.scan` — the tokens of a text, or nothing when some part of it is no token;
* `stringBody?` — the inside of a string up to its closing quote, as codes: an escape `\u` stands
  for one, and the text of the codes puts the two halves of a character together;
* `numeral?` — the number at the front of a text: no plus sign, no zero in front of other digits,
  and a digit on both sides of the point.

A half of a character may stand inside a string only; so all other words are looked for among the
characters in front of the first half.
-/

namespace BoundedJobs

namespace Json

/-- The tokens of JSON. -/
inductive Token where
  | openArray
  | closeArray
  | openObject
  | closeObject
  | comma
  | colon
  | string (value : Text)
  | scalar (value : Json Text)

/-- The four characters that may stand between tokens. -/
def isBlank : Letter → Bool
  | .char c => c = ' ' || c = '\t' || c = '\n' || c = '\r'
  | .half .. => false

/-! ## Strings -/

/-- The value of a digit of the base sixteen. -/
def hexValue? (c : Char) : Option Nat :=
  if '0' ≤ c ∧ c ≤ '9' then some (c.toNat - '0'.toNat)
  else if 'a' ≤ c ∧ c ≤ 'f' then some (c.toNat - 'a'.toNat + 10)
  else if 'A' ≤ c ∧ c ≤ 'F' then some (c.toNat - 'A'.toNat + 10)
  else none

/-- The code that four digits of the base sixteen write. -/
def hexUnit? (a b c d : Char) : Option Nat := do
  let a ← hexValue? a
  let b ← hexValue? b
  let c ← hexValue? c
  let d ← hexValue? d
  return ((a * 16 + b) * 16 + c) * 16 + d

/-- The code that a backslash and a letter write. -/
def letterEscape? (c : Char) : Option Nat :=
  if c = '"' ∨ c = '\\' ∨ c = '/' then some c.toNat
  else if c = 'b' then some 8
  else if c = 'f' then some 12
  else if c = 'n' then some 10
  else if c = 'r' then some 13
  else if c = 't' then some 9
  else none

/-- The codes of a string up to its closing quote, and what follows the quote. -/
def stringBody? : List Letter → Option (List Nat × List Letter)
  | [] => none
  | .char '"' :: rest => some ([], rest)
  | .char '\\' :: .char 'u' :: .char a :: .char b :: .char c :: .char d :: rest => do
    let code ← hexUnit? a b c d
    let (codes, rest) ← stringBody? rest
    return (code :: codes, rest)
  | .char '\\' :: .char c :: rest => do
    let code ← letterEscape? c
    let (codes, rest) ← stringBody? rest
    return (code :: codes, rest)
  | letter :: rest =>
    if letter.code < 0x20 ∨ letter = .char '\\' then none
    else do
      let (codes, rest) ← stringBody? rest
      return (letter.code :: codes, rest)

/-! ## Numbers -/

def isDigit (c : Char) : Bool := '0' ≤ c && c ≤ '9'

/-- The natural number that decimal digits write. -/
def decimalValue (digits : List Char) : Nat :=
  digits.foldl (fun n c => n * 10 + (c.toNat - '0'.toNat)) 0

/-- The digits behind a point at the front of a text, none without a point. -/
def fractionPart? : List Char → Option (List Char × List Char)
  | '.' :: rest =>
    if (rest.takeWhile isDigit).isEmpty then none
    else some (rest.takeWhile isDigit, rest.dropWhile isDigit)
  | rest => some ([], rest)

/-- The exponent that digits with an optional sign in front of them write. -/
def signedExponent? (rest : List Char) : Option (Int × List Char) :=
  let (negative, digits) : Bool × List Char :=
    match rest with
    | '+' :: tail => (false, tail)
    | '-' :: tail => (true, tail)
    | tail => (false, tail)
  if (digits.takeWhile isDigit).isEmpty then none
  else
    let magnitude : Int := decimalValue (digits.takeWhile isDigit)
    some (if negative then -magnitude else magnitude, digits.dropWhile isDigit)

/-- The exponent at the front of a text, zero without a mark for it. -/
def exponentPart? : List Char → Option (Int × List Char)
  | 'e' :: rest => signedExponent? rest
  | 'E' :: rest => signedExponent? rest
  | rest => some (0, rest)

/-- The unsigned number at the front of a text. -/
def magnitude? (cs : List Char) : Option (Number × List Char) := do
  let whole := cs.takeWhile isDigit
  if whole.isEmpty || (whole.head? == some '0' && whole.length != 1) then none
  else do
    let (fraction, rest) ← fractionPart? (cs.dropWhile isDigit)
    let (exponent, rest) ← exponentPart? rest
    return (Number.ofDecimal (decimalValue (whole ++ fraction)) (exponent - fraction.length), rest)

/-- The number at the front of a text. -/
def numeral? : List Char → Option (Number × List Char)
  | '-' :: rest => (magnitude? rest).map fun (n, rest) => (-n, rest)
  | cs => magnitude? cs

/-! ## The tokens -/

/-- The name or number at the front of a text. -/
def word? : List Char → Option (Json Text × List Char)
  | 'n' :: 'u' :: 'l' :: 'l' :: rest => some (null, rest)
  | 't' :: 'r' :: 'u' :: 'e' :: rest => some (bool true, rest)
  | 'f' :: 'a' :: 'l' :: 's' :: 'e' :: rest => some (bool false, rest)
  | cs => (numeral? cs).map fun (n, rest) => (number n, rest)

/-- The token at the front of a text that does not start with a blank. -/
def Token.front? : List Letter → Option (Token × List Letter)
  | .char '[' :: rest => some (openArray, rest)
  | .char ']' :: rest => some (closeArray, rest)
  | .char '\x7b' :: rest => some (openObject, rest)
  | .char '\x7d' :: rest => some (closeObject, rest)
  | .char ',' :: rest => some (comma, rest)
  | .char ':' :: rest => some (colon, rest)
  | .char '"' :: rest =>
    (stringBody? rest).map fun (codes, rest) => (string (.ofCodes codes), rest)
  | letters =>
    let cs := Letter.run letters
    (word? cs).map fun (value, rest) =>
      (scalar value, rest.map .char ++ letters.drop cs.length)

/-- The tokens of a text; every token takes at least one letter, so `fuel` need not exceed the
length of the text. -/
def Token.scanWithin : Nat → List Letter → Option (List Token)
  | _, [] => some []
  | 0, _ :: _ => none
  | fuel + 1, letter :: rest =>
    if isBlank letter then scanWithin fuel rest
    else do
      let (token, rest) ← front? (letter :: rest)
      let tokens ← scanWithin fuel rest
      return token :: tokens

/-- The tokens of a text. -/
def Token.scan (letters : List Letter) : Option (List Token) := scanWithin letters.length letters

end Json

end BoundedJobs
