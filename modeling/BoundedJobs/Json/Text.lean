import BoundedJobs.Json.Basic

/-!
# The written form of a JSON tree

* `Json.quoted` — a string between quotes. Quote, backslash and the control characters below
  U+0020 are escaped, the five common ones by a letter; every other character stands for itself.
  A half of a character is written by its code;
* `Json.compact` — the tree without blanks;
* `Json.indented` — the tree over several lines, two blanks for each level; an empty array or
  object stays on one line.

A number that is no finite number has no written form and becomes `null`.
-/

namespace BoundedJobs

namespace Json

/-- A digit of the base sixteen. -/
def hexDigit (n : Nat) : Char := Nat.digitChar n

/-- A character inside a quoted string. -/
def escaped (c : Char) : List Char :=
  if c = '"' then ['\\', '"']
  else if c = '\\' then ['\\', '\\']
  else if c = '\x08' then ['\\', 'b']
  else if c = '\x0c' then ['\\', 'f']
  else if c = '\n' then ['\\', 'n']
  else if c = '\r' then ['\\', 'r']
  else if c = '\t' then ['\\', 't']
  else if c.toNat < 0x20 then
    ['\\', 'u', '0', '0', hexDigit (c.toNat / 16), hexDigit (c.toNat % 16)]
  else [c]

/-- A letter inside a quoted string. -/
def spelled : Letter → List Char
  | .char c => escaped c
  | .half isFirst bits =>
    let code := (Letter.half isFirst bits).code
    ['\\', 'u', hexDigit (code / 4096), hexDigit (code / 256 % 16), hexDigit (code / 16 % 16),
      hexDigit (code % 16)]

section

variable {τ : Type} [Wording τ]

/-- The characters of a string between quotes. -/
def quotedChars (s : τ) : List Char := '"' :: (Wording.letters s).flatMap spelled ++ ['"']

/-- A text as JSON writes it, in quotes. -/
def quoted (s : String) : String := String.ofList (quotedChars s)

/-- The text of a number inside a tree. -/
def numberText (n : Number) : String :=
  match n with
  | .finite _ => n.text
  | _ => "null"

/-- Texts one after the other with commas between them. -/
def commaJoined (texts : List (List Char)) : List Char := [','].intercalate texts

mutual

/-- The characters of a tree, without blanks. -/
def compactChars : Json τ → List Char
  | null => "null".toList
  | bool value => (if value then "true" else "false").toList
  | number value => (numberText value).toList
  | string value => quotedChars value
  | array items => '[' :: commaJoined (compactItems items) ++ [']']
  | object members => '\x7b' :: commaJoined (compactMembers members) ++ ['\x7d']

/-- The characters of each item. -/
def compactItems : List (Json τ) → List (List Char)
  | [] => []
  | item :: items => compactChars item :: compactItems items

/-- The characters of each member, its name first. -/
def compactMembers : List (τ × Json τ) → List (List Char)
  | [] => []
  | (name, value) :: members =>
    (quotedChars name ++ ':' :: compactChars value) :: compactMembers members

end

/-- A tree in one line without blanks. -/
def compact (tree : Json τ) : String := String.ofList (compactChars tree)

/-- A line break and the blanks in front of a line of the given level. -/
def freshLine (level : Nat) : List Char := '\n' :: List.replicate (2 * level) ' '

/-- The lines of a container between its brackets: one entry a line, one level further in. -/
def block (left right : Char) (level : Nat) (entries : List (List Char)) : List Char :=
  if entries.isEmpty then [left, right]
  else
    left :: freshLine (level + 1) ++ (',' :: freshLine (level + 1)).intercalate entries
      ++ freshLine level ++ [right]

mutual

/-- The characters of a tree that starts on a line of the given level. -/
def indentedChars (level : Nat) : Json τ → List Char
  | array items => block '[' ']' level (indentedItems (level + 1) items)
  | object members => block '\x7b' '\x7d' level (indentedMembers (level + 1) members)
  | null => compactChars (null : Json τ)
  | bool value => compactChars (bool value : Json τ)
  | number value => compactChars (number value : Json τ)
  | string value => compactChars (string value)

def indentedItems (level : Nat) : List (Json τ) → List (List Char)
  | [] => []
  | item :: items => indentedChars level item :: indentedItems level items

def indentedMembers (level : Nat) : List (τ × Json τ) → List (List Char)
  | [] => []
  | (name, value) :: members =>
    (quotedChars name ++ ':' :: ' ' :: indentedChars level value) :: indentedMembers level members

end

/-- A tree over several lines, two blanks for each level. -/
def indented (tree : Json τ) : String := String.ofList (indentedChars 0 tree)

end

end Json

end BoundedJobs
