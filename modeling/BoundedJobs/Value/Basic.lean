import BoundedJobs.Json.Basic

/-!
# Values and faults

A task may return or throw anything, a hook may throw anything, and a capacity probe may fail with
anything. What such a thing can be is a `Value`: plain data, and beside it the shapes that refuse
to be turned into text or to be looked at. Its texts are made of characters, unless another kind of
texts is asked for.

A `Fault` is a well-formed error object: its kind, its message and, where one was given, its
cause. Every error that the library itself raises is a `Fault`; a `Value` may hold one.

* `Fault.Kind.name`, `Fault.Kind.code?` — how a kind of fault is called, and its machine-readable
  code;
* `Value.isFault` — whether a value counts as an error object;
* `Value.alone` — what was found inside an array, as a value on its own;
* `Value.ofJson` — plain data read from JSON, where the last of two members with one name counts
  but keeps the place of the first.
-/

namespace BoundedJobs

/-- What kind of error a fault is, with the data that belongs to that kind. -/
inductive Fault.Kind where
  /-- An error without further meaning. -/
  | plain
  /-- An argument outside its range. -/
  | range
  /-- A value of the wrong type. -/
  | type
  /-- A text that is not in its format. -/
  | format
  /-- The reason of an abort for which no other reason was given. -/
  | abort
  /-- A library error with a code and no kind of its own. -/
  | coded (code : String)
  /-- A setting that cannot be used. -/
  | config
  /-- Data that does not have the required shape. -/
  | validation
  /-- The failures of a run, in the order in which its tasks finished. -/
  | parallel (failures : List String)
  /-- Docker cannot be reached or understood. -/
  | docker
  /-- A shell command that did not succeed. -/
  | command (line : String) (exitCode : Option Number) (signal : Option String)
  /-- A refusal of the history's storage. -/
  | storage (code : String)
  deriving DecidableEq, Inhabited

/-- Anything that a task, a hook or a probe may hand over. -/
inductive Value (τ : Type := String) where
  | absent
  | null
  | bool (value : Bool)
  | number (value : Number)
  /-- A whole number without bounds. -/
  | integer (value : Int)
  | symbol (description : String)
  | text (value : τ)
  | array (items : List (Value τ))
  /-- One of the arrays around this place, once more: the innermost one, or so many further out. A
  value that holds it is cyclic. -/
  | loop (level : Nat)
  | object (fields : List (τ × Value τ))
  /-- An object that inherits nothing, not even a conversion to text. -/
  | bare (fields : List (τ × Value τ))
  | fault (kind : Fault.Kind) (message : String) (cause : Option (Value τ))
  /-- An error whose message is some other value. -/
  | messaged (message : Value τ)
  /-- An error whose message cannot be read: reading it throws an error with this text. -/
  | unreadable (reason : String)
  | map
  /-- An object with a type label; its conversion to text may throw. -/
  | tagged (label : String) (throws : Bool)
  /-- An object whose type label cannot be read: reading it throws an error with this text. -/
  | unlabelled (reason : String)
  /-- An object whose conversion to text gives this value. -/
  | convertible (result : Value τ)
  /-- An object whose conversion to text throws an error with this text. -/
  | unprintable (reason : String)
  /-- A value that cannot be used in any way: every use throws. -/
  | revoked
  deriving Inhabited

/-- An error object. The cause is present as soon as one was given, even an absent one. -/
structure Fault where
  kind : Fault.Kind
  message : String
  cause : Option Value := none
  deriving Inhabited

namespace Fault

/-- How a kind of fault is called. -/
def Kind.name : Kind → String
  | plain => "Error"
  | range => "RangeError"
  | type => "TypeError"
  | format => "SyntaxError"
  | abort => "AbortError"
  | coded _ => "BuildParallelError"
  | config => "ConfigError"
  | validation => "ValidationError"
  | parallel _ => "ParallelError"
  | docker => "DockerError"
  | command .. => "CommandError"
  | storage _ => "SqliteError"

/-- The machine-readable code of a kind of fault, for those that have one. -/
def Kind.code? : Kind → Option String
  | coded code => some code
  | config => some "CONFIG_INVALID"
  | validation => some "VALIDATION_FAILED"
  | parallel _ => some "PARALLEL_FAILED"
  | docker => some "DOCKER_UNAVAILABLE"
  | command .. => some "COMMAND_FAILED"
  | storage code => some code
  | _ => none

/-- Whether a kind belongs to the library's own family of errors. -/
def Kind.isOwn : Kind → Bool
  | coded _ | config | validation | parallel _ | docker | command .. => true
  | _ => false

/-- The fault as a value that can be thrown, returned or kept as a cause. -/
def value (f : Fault) : Value := .fault f.kind f.message f.cause

/-- An error with a message and no further meaning. -/
def plain (message : String) : Fault := { kind := .plain, message }

/-- The error for a use that the value does not allow. -/
def wrongType (message : String) : Fault := { kind := .type, message }

/-- The reason of an abort for which no other reason was given. -/
def aborted : Fault := { kind := .abort, message := "This operation was aborted" }

/-- The one error that stands for all failures of a run; its message is theirs, one a line. -/
def ofFailures (failures : List String) : Fault :=
  { kind := .parallel failures, message := "\n".intercalate failures }

/-- The text of an error object: its name and its message, or the name alone. -/
def text (f : Fault) : String :=
  if f.message.isEmpty then f.kind.name else f.kind.name ++ ": " ++ f.message

end Fault

namespace Value

variable {τ : Type}

/-- Whether the value is an error object. A revoked value cannot even be asked. -/
def isFault : Value → Bool
  | fault .. => true
  | messaged _ => true
  | unreadable _ => true
  | _ => false

/-- Whether the value is an object and not one of the simple data. -/
def isObject : Value → Bool
  | absent | null | bool _ | number _ | integer _ | symbol _ | text _ => false
  | _ => true

mutual

/-- What was found inside an array, with so many others between them, as a value on its own: the
array itself stands wherever it leads back to it. -/
def alone (around : Value τ) (level : Nat) : Value τ → Value τ
  | loop outwards => if outwards = level then around else loop outwards
  | array items => array (itemsAlone around (level + 1) items)
  | object fields => object (fieldsAlone around level fields)
  | bare fields => bare (fieldsAlone around level fields)
  | fault kind message (some cause) => fault kind message (some (alone around level cause))
  | messaged message => messaged (alone around level message)
  | convertible result => convertible (alone around level result)
  | value => value

def itemsAlone (around : Value τ) (level : Nat) : List (Value τ) → List (Value τ)
  | [] => []
  | item :: items => alone around level item :: itemsAlone around level items

def fieldsAlone (around : Value τ) (level : Nat) : List (τ × Value τ) → List (τ × Value τ)
  | [] => []
  | (name, value) :: fields => (name, alone around level value) :: fieldsAlone around level fields

end

/-- A list of named entries in which a name has been given a value: a name that occurs already
keeps its place. -/
def put {α : Type} [DecidableEq τ] (name : τ) (value : α) : List (τ × α) → List (τ × α)
  | [] => [(name, value)]
  | (other, old) :: rest =>
    if other = name then (name, value) :: rest else (other, old) :: put name value rest

variable [DecidableEq τ]

mutual

/-- Plain data read from JSON. -/
def ofJson : Json τ → Value τ
  | .null => null
  | .bool value => bool value
  | .number value => number value
  | .string value => text value
  | .array items => array (ofItems items)
  | .object members => object (ofMembers [] members)

def ofItems : List (Json τ) → List (Value τ)
  | [] => []
  | item :: items => ofJson item :: ofItems items

/-- The fields of an object, given those of the members in front. -/
def ofMembers (before : List (τ × Value τ)) : List (τ × Json τ) → List (τ × Value τ)
  | [] => before
  | (name, value) :: members => ofMembers (put name (ofJson value) before) members

end

end Value

end BoundedJobs
