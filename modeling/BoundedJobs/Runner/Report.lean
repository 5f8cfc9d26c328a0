import BoundedJobs.Shape

/-!
# Outcomes and reports

A run leaves a report behind: one outcome for each of its tasks, in the order in which the tasks
were given, and beside them the messages of the failures, in the order in which the tasks
finished.

* `Outcome`, `Report` — the data;
* `Outcome.shape`, `Outcome.listShape` — the shapes of stored outcomes;
* `Outcome.value`, `Report.value` — the same as plain data.
-/

namespace BoundedJobs

/-- How a task ended. -/
inductive Status where
  | ok
  | failed
  deriving DecidableEq, Inhabited

def Status.name : Status → String
  | ok => "ok"
  | failed => "failed"

/-- How one task of a run ended. -/
structure Outcome where
  name : String
  status : Status
  error : Option String := none
  /-- How long the task waited for a slot. -/
  waitedMs : Number
  durationMs : Number
  deriving DecidableEq, Inhabited

/-- What a run has come to. -/
structure Report where
  runId : String
  maxParallel : Number
  failures : List String
  tasks : List Outcome
  startedAt : Number
  finishedAt : Number
  durationMs : Number
  deriving DecidableEq, Inhabited

namespace Outcome

/-- The shape of a status. -/
def statusShape (value : Value) : Shape.Checked Status :=
  match value with
  | .text "ok" => .ok .ok
  | .text "failed" => .ok .failed
  | .text other => .fail (.wrongChoice other)
  | other => Shape.mismatch Shape.choices other

/-- The shape of a message that may be missing. -/
def errorShape (value : Value) : Shape.Checked (Option String) := (Shape.string value).map some

/-- The shape of a stored outcome. Fields of other names are ignored. -/
def shape : Value → Shape.Checked Outcome :=
  Shape.objectWith fun value =>
    let name := Shape.field "name" Shape.string value
    let status := Shape.field "status" statusShape value
    let error := Shape.fieldOr "error" none errorShape value
    let waited := Shape.field "waitedMs" Shape.number value
    let duration := Shape.field "durationMs" Shape.number value
    (name.both (status.both (error.both (waited.both duration)))).map
      fun (name, status, error, waitedMs, durationMs) =>
        { name, status, error, waitedMs, durationMs }

/-- The shape of the stored outcomes of a run. -/
def listShape : Value → Shape.Checked (List Outcome) := Shape.arrayOf shape

/-- An outcome as plain data. A task without an error has no such field. -/
def value (o : Outcome) : Value :=
  .object
    ([("name", .text o.name), ("status", .text o.status.name), ("waitedMs", .number o.waitedMs),
      ("durationMs", .number o.durationMs)]
      ++ o.error.toList.map fun error => ("error", .text error))

end Outcome

/-- A report as plain data. -/
def Report.value (r : Report) : Value :=
  .object
    [("runId", .text r.runId), ("maxParallel", .number r.maxParallel),
     ("failures", .array (r.failures.map .text)),
     ("tasks", .array (r.tasks.map Outcome.value)),
     ("startedAt", .number r.startedAt), ("finishedAt", .number r.finishedAt),
     ("durationMs", .number r.durationMs)]

end BoundedJobs
