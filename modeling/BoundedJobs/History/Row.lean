import BoundedJobs.History.Parameter
import BoundedJobs.Json.Parser
import BoundedJobs.Runner.Report
import BoundedJobs.Value.Dump

/-!
# Rows

A run is stored as one row. Its failures and the outcomes of its tasks are kept as JSON text and
are checked again when they are read; its numbers are kept in columns that also take texts, so
what is read need not be a number.

* `Draft` — a report as it is handed over: its parts may be any values;
* `Row`, `Row.ofDraft` — a stored run, and how a draft becomes one;
* `Entry`, `Row.entry` — a report as it is read back;
* `Entry.ofReport` — the entry that agrees with a report in every part.
-/

namespace BoundedJobs

namespace History

/-! ## Drafts -/

/-- A report as it is handed over. -/
structure Draft where
  runId : Value
  maxParallel : Value
  failures : Value
  tasks : Value
  startedAt : Value
  finishedAt : Value
  deriving Inhabited

/-- A report of a run, ready to be recorded. -/
def Draft.ofReport (r : Report) : Draft where
  runId := .text r.runId
  maxParallel := .number r.maxParallel
  failures := .array (r.failures.map .text)
  tasks := .array (r.tasks.map Outcome.value)
  startedAt := .number r.startedAt
  finishedAt := .number r.finishedAt

/-- The refusal to look for parts where there are none. -/
def noParts : Fault := Fault.wrongType "Cannot read properties of undefined"

/-- The parts of any value that is handed over as a report; those that it does not show are
absent. -/
def Draft.ofValue (value : Value) : Except Fault Draft :=
  match value with
  | .absent | .null => .error noParts
  | .revoked => .error Value.noAccess
  | _ =>
    .ok
      { runId := value.field "runId", maxParallel := value.field "maxParallel",
        failures := value.field "failures", tasks := value.field "tasks",
        startedAt := value.field "startedAt", finishedAt := value.field "finishedAt" }

/-! ## Rows -/

/-- A run as it is stored. -/
structure Row where
  /-- The identifier; a row without one is never found or replaced by it. -/
  runId : Option String
  maxParallel : Cell
  failures : String
  tasks : String
  startedAt : Cell
  finishedAt : Cell
  deriving DecidableEq, Inhabited

/-- The refusal of a row in which a number is missing. -/
def missing (column : String) : Fault :=
  { kind := .storage "SQLITE_CONSTRAINT_NOTNULL",
    message := "NOT NULL constraint failed: runs." ++ column }

/-- What a column for numbers holds, which must be something. -/
def required (column : String) (cell : Cell) : Except Fault Cell :=
  match cell.forNumbers with
  | .empty => .error (missing column)
  | stored => .ok stored

/-- The row that cells make up. The two columns of JSON text hold an empty list where nothing is
given for them. -/
def Row.ofCells : List Cell → Except Fault Row
  | [runId, cap, failures, tasks, started, finished] => do
    let maxParallel ← required "max_parallel" cap
    let startedAt ← required "started_at" started
    let finishedAt ← required "finished_at" finished
    return { runId := runId.forTexts, maxParallel, failures := failures.forTexts.getD "[]",
             tasks := tasks.forTexts.getD "[]", startedAt, finishedAt }
  | _ => .error tooFew

/-- The JSON text of a part, absent for a part that JSON leaves out. -/
def jsonPart (value : Value) : Except Fault Value := do
  let tree ← value.dump
  return tree.elim .absent fun tree => .text tree.compact

/-- The row of a draft. -/
def Row.ofDraft (d : Draft) : Except Fault Row := do
  let failures ← jsonPart d.failures
  let tasks ← jsonPart d.tasks
  let cells ←
    Filling.bound 6 [d.runId, d.maxParallel, failures, tasks, d.startedAt, d.finishedAt]
  Row.ofCells cells

/-! ## Reading a row -/

/-- A report as it is read from a history. -/
structure Entry where
  runId : Option String
  maxParallel : Value
  failures : List String
  tasks : List Outcome
  startedAt : Value
  finishedAt : Value
  durationMs : Number
  deriving Inhabited

/-- The entry that agrees with a report in every part. -/
def Entry.ofReport (r : Report) : Entry where
  runId := some r.runId
  maxParallel := .number r.maxParallel
  failures := r.failures
  tasks := r.tasks
  startedAt := .number r.startedAt
  finishedAt := .number r.finishedAt
  durationMs := r.durationMs

/-- An entry as plain data. -/
def Entry.value (e : Entry) : Value :=
  .object
    [("runId", e.runId.elim .null .text), ("maxParallel", e.maxParallel),
     ("failures", .array (e.failures.map .text)),
     ("tasks", .array (e.tasks.map Outcome.value)), ("startedAt", e.startedAt),
     ("finishedAt", e.finishedAt), ("durationMs", .number e.durationMs)]

/-- The refusal of a stored text that is no JSON. -/
def unreadable : Fault := { kind := .format, message := "Unexpected token in JSON" }

/-- The value in a stored text. -/
def parsed (text : String) : Except Fault Value :=
  match Json.parse? text with
  | some tree => .ok (Value.ofJson tree)
  | none => .error unreadable

/-- The failures in a stored value: the texts of the items of an array, none of anything else. -/
def failuresOf (value : Value) : Except Fault (List String) :=
  match value with
  | .array items => items.mapM Value.plainText
  | _ => .ok []

/-- What the outcomes in a row are called. -/
def Row.tasksLabel (row : Row) : String := "tasks of run " ++ row.runId.getD "null"

/-- The report in a row. -/
def Row.entry (row : Row) : Except Fault Entry := do
  let stored ← parsed row.failures
  let failures ← failuresOf stored
  let outcomes ← parsed row.tasks
  let tasks ← Shape.demand row.tasksLabel (Outcome.listShape outcomes)
  return { runId := row.runId, maxParallel := row.maxParallel.value, failures, tasks,
           startedAt := row.startedAt.value, finishedAt := row.finishedAt.value,
           durationMs := row.finishedAt.amount - row.startedAt.amount }

end History

end BoundedJobs
