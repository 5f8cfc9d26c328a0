import BoundedJobs.Json.Parser
import BoundedJobs.Shape

/-!
# What the docker daemon says about itself

The daemon answers with one JSON object, of which four fields are read. The CPU count must be
there; the others have defaults, and labels may also be `null`. An escape in the answer may stand
for one half of a character, so what is read are texts and not characters.

* `Docker.Info.parse` — an answer. What is no JSON is refused by a `DockerError`, JSON of another
  shape by a `ValidationError`;
* `Docker.Info.runsBoot2Docker` — whether the daemon runs on the boot2docker distribution.
-/

namespace BoundedJobs

namespace Docker

/-- What is read of an answer of the daemon. -/
structure Info where
  operatingSystem : Text
  labels : List Text
  ncpu : Int
  memTotal : Int
  deriving DecidableEq, Inhabited

namespace Info

/-- Labels are an array of texts or `null`, which stands for no labels. -/
def labelsShape (value : Value Text) : Shape.Checked (List Text) :=
  match value with
  | .null => .ok []
  | _ => Shape.arrayOf Shape.string value

/-- The shape of an answer. -/
def shape : Value Text → Shape.Checked Info :=
  Shape.objectWith fun value =>
    let system := Shape.fieldOr "OperatingSystem" (.ofString "") Shape.string value
    let labels := Shape.fieldOr "Labels" [] labelsShape value
    let ncpu := Shape.field "NCPU" Shape.integer value
    let memory := Shape.fieldOr "MemTotal" 0 Shape.integer value
    (system.both (labels.both (ncpu.both memory))).map
      fun (operatingSystem, labels, ncpu, memTotal) => { operatingSystem, labels, ncpu, memTotal }

/-- The error for an answer that is no JSON text. -/
def notJson : Fault :=
  { kind := .docker, message := "docker info returned invalid JSON",
    cause := some (Fault.value { kind := .format, message := "Unexpected token" }) }

/-- The information in an answer of the daemon. -/
def parse (answer : Text) : Except Fault Info :=
  match Json.read? answer with
  | none => .error notJson
  | some tree => Shape.demand "docker info" (shape (Value.ofJson tree))

/-- A letter in lower case, as far as the letters of "boot2docker" are concerned: the capitals
of the ASCII alphabet, and the Kelvin sign, whose lower case is the letter k. -/
def lowered : Letter → Letter
  | .char c => .char (if c = '\u212a' then 'k' else c.toLower)
  | half => half

/-- Whether letters stand somewhere among others. -/
def contains (part : List Letter) : List Letter → Bool
  | [] => part.isEmpty
  | letter :: rest => part.isPrefixOf (letter :: rest) || contains part rest

/-- Whether the daemon's operating system names the boot2docker distribution, in any case of
letters. -/
def runsBoot2Docker (operatingSystem : Text) : Bool :=
  contains (Text.ofString "boot2docker").letters (operatingSystem.letters.map lowered)

/-- The information as JSON. -/
def json (info : Info) : Json Text :=
  .object
    [(.ofString "operatingSystem", .string info.operatingSystem),
     (.ofString "labels", .array (info.labels.map .string)),
     (.ofString "ncpu", .number (.ofInt info.ncpu)),
     (.ofString "memTotal", .number (.ofInt info.memTotal))]

end Info

end Docker

end BoundedJobs
