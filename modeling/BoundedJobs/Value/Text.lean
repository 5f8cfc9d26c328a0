import BoundedJobs.Value.Basic

/-!
# The text of a value

* `Value.spelled` — the text of a value inside a longer text. Numbers, truth values and the two
  empty values are written by name, arrays by their items with commas between them, an error by its
  name and message. An array that is being written already leaves its place inside itself empty.
  Symbols, objects without a conversion and objects whose conversion misbehaves have none;
* `Value.plainText` — the text of a value on its own, where a symbol has one too;
* `Value.typeLabel?` — the bracketed type of a value, unless it cannot be read;
* `Value.failureText` — a message for whatever a task failed with. It is total: what has no text
  is described by its type, and what has no type by a fixed phrase.
-/

namespace BoundedJobs

namespace Value

/-- The use of a value as a text was refused. -/
def noText : Fault := Fault.wrongType "Cannot convert object to primitive value"

/-- The use of a symbol as a part of a text was refused. -/
def noSymbolText : Fault := Fault.wrongType "Cannot convert a Symbol value to a string"

/-- What a labelled object throws whose conversion to text throws. -/
def labelledNoText : Fault := Fault.plain "no text"

/-- Every use of a revoked value is refused. -/
def noAccess : Fault := Fault.wrongType "Cannot perform 'get' on a proxy that has been revoked"

/-- The text of an error object with the given name. -/
def namedText (name message : String) : String :=
  if message.isEmpty then name else name ++ ": " ++ message

mutual

/-- The text of a value inside a longer text, or the error that asking for it raises. -/
def spelled : Value → Except Fault String
  | absent => .ok "undefined"
  | null => .ok "null"
  | bool value => .ok (if value then "true" else "false")
  | number value => .ok value.text
  | integer value => .ok (toString value)
  | symbol _ => .error noSymbolText
  | text value => .ok value
  | array items => do
    let texts ← spelledItems items
    return ",".intercalate texts
  -- an array is not written again inside itself
  | loop _ => .ok ""
  -- a field of this name takes the place of the conversion that every object has
  | object fields =>
    if fields.any (·.1 == "toString") then .error noText else .ok "[object Object]"
  | bare _ => .error noText
  | fault kind message _ => .ok (namedText kind.name message)
  | messaged absent => .ok "Error"
  | messaged message => do
    let message ← spelled message
    return namedText "Error" message
  | unreadable reason => .error (Fault.plain reason)
  | map => .ok "[object Map]"
  | tagged label throws =>
    if throws then .error labelledNoText else .ok ("[object " ++ label ++ "]")
  | unlabelled reason => .error (Fault.plain reason)
  -- a conversion has to give something that is not an object again
  | convertible result => if result.isObject then .error noText else spelled result
  | unprintable reason => .error (Fault.plain reason)
  | revoked => .error noAccess

/-- The texts of the items of an array; the two empty values have an empty one. -/
def spelledItems : List Value → Except Fault (List String)
  | [] => .ok []
  | absent :: items => do
    let texts ← spelledItems items
    return "" :: texts
  | null :: items => do
    let texts ← spelledItems items
    return "" :: texts
  -- the first item without a text decides, and later ones are not asked
  | item :: items => do
    let text ← spelled item
    let texts ← spelledItems items
    return text :: texts

end

/-- The text of a value on its own. -/
def plainText : Value → Except Fault String
  | symbol description => .ok ("Symbol(" ++ description ++ ")")
  | value => spelled value

/-- The bracketed type of a value that has no text. A revoked value has no type either, and a label
that cannot be read hides it. -/
def typeLabel? : Value → Option String
  -- an array and an error are recognised without asking them
  | array _ | loop _ => some "[object Array]"
  | fault .. | messaged _ | unreadable _ => some "[object Error]"
  | map => some "[object Map]"
  | tagged label _ => some ("[object " ++ label ++ "]")
  | unlabelled _ | revoked => none
  | _ => some "[object Object]"

/-- The message of an error object, which need not be a text. -/
def message? : Value → Except Fault Value
  | fault _ message _ => .ok (text message)
  | messaged message => .ok message
  | unreadable reason => .error (Fault.plain reason)
  | _ => .ok absent

/-- What a failure says about itself: the message of an error, the text of anything else. Unlike
`failureText` this may raise an error of its own. -/
def complaint (value : Value) : Except Fault Value :=
  match value with
  -- it cannot even be asked whether it is an error
  | revoked => .error noAccess
  | _ => if value.isFault then value.message? else text <$> value.plainText

/-- A message for any failure. An error is described by its message, anything else by its text; what
refuses both is described by its type, and a value that refuses even that by a fixed phrase. -/
def failureText (value : Value) : String :=
  let described : Except Fault String :=
    if value.isFault then value.message?.bind plainText else value.plainText
  match described with
  | .ok described => described
  -- what goes wrong while a failure is described is not a failure of its own
  | .error _ => value.typeLabel?.getD "unknown fault"

end Value

end BoundedJobs
