import BoundedJobs.Json.Token

/-!
# Reading a JSON text

The tokens of a text are read one after the other, with a stack of the arrays and objects that are
still open. Each token either leads to exactly one next state or ends the reading.

* `Reading` — what has been read and what may follow;
* `Reading.next?` — one token;
* `Json.ofTokens?`, `Json.read?` — a whole text. It is accepted when one value has been completed
  and nothing is open: texts with anything in front of the value or behind it are refused;
* `Json.parse?` — the same for a text of characters where only characters may stand: a half that is
  escaped in it is lost.
-/

namespace BoundedJobs

namespace Json

/-- A container that is still open. Its entries so far stand in reverse order. -/
inductive Frame where
  | items (before : List (Json Text))
  | member (before : List (Text × Json Text)) (name : Text)

/-- What has been read, with the open containers from the innermost outwards. -/
inductive Reading where
  /-- A value must follow. -/
  | atValue (frames : List Frame)
  /-- An array was opened: its first item or its end must follow. -/
  | atFirstItem (frames : List Frame)
  /-- An object was opened: its first name or its end must follow. -/
  | atFirstName (frames : List Frame)
  /-- The next name of an object must follow. -/
  | atName (before : List (Text × Json Text)) (frames : List Frame)
  /-- A name was read and its colon must follow. -/
  | atColon (before : List (Text × Json Text)) (name : Text) (frames : List Frame)
  /-- A value was completed. -/
  | complete (value : Json Text) (frames : List Frame)

namespace Reading

/-- A token at a place where a value must stand. -/
def enter? (frames : List Frame) : Token → Option Reading
  | .openArray => some (atFirstItem frames)
  | .openObject => some (atFirstName frames)
  | .string value => some (complete (.string value) frames)
  | .scalar value => some (complete value frames)
  | _ => none

/-- A token behind a completed value. -/
def leave? (value : Json Text) : List Frame → Token → Option Reading
  | .items before :: frames, .comma => some (atValue (.items (value :: before) :: frames))
  | .items before :: frames, .closeArray =>
    some (complete (.array (value :: before).reverse) frames)
  | .member before name :: frames, .comma => some (atName ((name, value) :: before) frames)
  | .member before name :: frames, .closeObject =>
    some (complete (.object ((name, value) :: before).reverse) frames)
  | _, _ => none

/-- The reading after one more token, if the token may stand there. -/
def next? : Reading → Token → Option Reading
  | atValue frames, token => enter? frames token
  | atFirstItem frames, .closeArray => some (complete (.array []) frames)
  | atFirstItem frames, token => enter? (.items [] :: frames) token
  | atFirstName frames, .closeObject => some (complete (.object []) frames)
  | atFirstName frames, .string text => some (atColon [] text frames)
  | atName before frames, .string text => some (atColon before text frames)
  | atColon before text frames, .colon => some (atValue (.member before text :: frames))
  | complete value frames, token => leave? value frames token
  | _, _ => none

/-- The value of a reading that may end here. -/
def result? : Reading → Option (Json Text)
  | complete value [] => some value
  | _ => none

end Reading

/-- The value that tokens write. -/
def ofTokens? (tokens : List Token) : Option (Json Text) := do
  let final ← tokens.foldlM Reading.next? (Reading.atValue [])
  final.result?

/-- The value that a text writes. -/
def read? (text : Text) : Option (Json Text) := do
  let tokens ← Token.scan text.letters
  ofTokens? tokens

/-- The value that a text of characters writes, where only characters may stand. -/
def parse? (text : String) : Option Json := (read? (.ofString text)).map (map Text.string)

end Json

end BoundedJobs
