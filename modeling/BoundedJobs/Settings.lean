import BoundedJobs.Shape
import BoundedJobs.Value.Dump
import BoundedJobs.Value.Numeric

/-!
# Settings

The settings stand in three sections. Every change starts from the defaults: a setting that is
given a value replaces its default, an absent one leaves it, and settings without a default are
kept beside the others. Whatever has named entries can stand for a section.

* `Settings.default` — the defaults;
* `Settings.configured` — the defaults with overrides laid over them, refused for overrides that
  cannot be looked into;
* `Settings.capVariable`, `Settings.dockerEnabled`, `Settings.listLimit`, … — what the library
  reads.
-/

namespace BoundedJobs

namespace Value

/-- Whether a value counts as true where a truth value is asked for. -/
def isTruthy : Value → Bool
  | absent | null => false
  | bool value => value
  | number n => n != 0 && n != .nan
  | integer value => value != 0
  | text value => !value.isEmpty
  | _ => true

/-- The named entries of a value; the items of an array and the characters of a text are named by
their places. -/
def entries : Value → List (String × Value)
  | object fields | bare fields => fields
  | fault kind _ _ => kindFields kind
  | array items => items.zipIdx.map fun (item, i) => (toString i, alone (array items) 0 item)
  | text value => value.toList.zipIdx.map fun (c, i) => (toString i, text (String.ofList [c]))
  | _ => []

end Value

/-- The settings of one section, by name. -/
abbrev Section := List (String × Value)

/-- All settings, section by section. -/
structure Settings where
  parallel : Section
  docker : Section
  history : Section
  deriving Inhabited

namespace Settings

/-- The one name that no setting can have: it stands for what an object inherits from. -/
def reservedName : String := "__proto__"

/-- A section in which a setting has been given a value. An absent value changes nothing. -/
def assigned (settings : Section) (name : String) (value : Value) : Section :=
  match value with
  | .absent => settings
  | _ => if name = reservedName then settings else Value.put name value settings

/-- A section with overrides laid over it. -/
def merged (base : Section) (overrides : Value) : Except Fault Section :=
  match overrides with
  | .revoked => .error Value.noAccess
  | _ =>
    .ok (overrides.entries.foldl (fun settings (name, value) => assigned settings name value) base)

/-- The settings that hold when nothing has been configured. -/
def default : Settings where
  parallel := [("envVar", .text "MAX_PARALLEL")]
  docker :=
    [("enabled", .bool true), ("command", .text "docker"),
     ("args", .array [.text "info", .text "-f", .text "\x7b\x7b json .\x7d\x7d"]),
     ("timeoutMs", .number 5000)]
  history :=
    [("enabled", .bool true), ("dbPath", .text "/home/user/.build-parallel/runs.db"),
     ("listLimit", .number 20)]

/-- The refusal of overrides that hold no sections at all. -/
def noSections : Fault := Fault.wrongType "Cannot read properties of undefined"

/-- The overrides for a section. -/
def overridesFor (name : String) (overrides : Value) : Except Fault Value :=
  match overrides with
  | .absent | .null => .error noSections
  | .revoked => .error Value.noAccess
  | _ => .ok (overrides.field name)

/-- The defaults with overrides laid over them, section by section. -/
def configured (overrides : Value) : Except Fault Settings := do
  let parallel ← merged default.parallel (← overridesFor "parallel" overrides)
  let docker ← merged default.docker (← overridesFor "docker" overrides)
  let history ← merged default.history (← overridesFor "history" overrides)
  return { parallel, docker, history }

/-- The value of a setting in a section. -/
def read (settings : Section) (name : String) : Value :=
  (Json.lookupLast name settings).getD .absent

/-- The name of the environment variable that holds an explicit cap, unless it is set to something
that names none. -/
def capVariable (s : Settings) : Except Fault (Option String) :=
  (read s.parallel "envVar").propertyName

def dockerEnabled (s : Settings) : Bool := (read s.docker "enabled").isTruthy

def dockerCommand (s : Settings) : Value := read s.docker "command"

def dockerArguments (s : Settings) : Value := read s.docker "args"

def dockerTimeout (s : Settings) : Value := read s.docker "timeoutMs"

def historyEnabled (s : Settings) : Bool := (read s.history "enabled").isTruthy

def listLimit (s : Settings) : Value := read s.history "listLimit"

/-- All settings as one value. -/
def value (s : Settings) : Value :=
  .object
    [("parallel", .object s.parallel), ("docker", .object s.docker), ("history", .object s.history)]

end Settings

end BoundedJobs
