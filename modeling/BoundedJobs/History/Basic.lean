import BoundedJobs.History.Row
import BoundedJobs.Settings

/-!
# The history of runs

A history keeps one row for each run identifier. Recording a run replaces the row of its
identifier and makes it the newest row.

* `History.record` — keep a report, handed over as a `Draft`; parts that cannot be stored are
  refused;
* `History.get`, `History.list` — read one run, or the latest ones first. Runs that started at the
  same moment come in the order in which they were recorded;
* `History.clear`, `History.dropBefore` — forget runs, and say how many;
* `History.close`, `History.reopen` — a closed history refuses everything but being closed again.

Identifiers, limits and moments are handed over as values and are read as a column of their kind
reads them.
-/

namespace BoundedJobs

/-- The rows in the order in which they were recorded. -/
structure History where
  rows : List History.Row := []
  isOpen : Bool := true
  deriving Inhabited

namespace History

/-- The refusal of a closed history. -/
def closed : Fault := Fault.wrongType "The database connection is not open"

/-- What an open history comes to; a closed one refuses. -/
def whileOpen {α : Type} (h : History) (result : Except Fault α) : Except Fault α :=
  if h.isOpen then result else .error closed

/-- The one cell of a statement with a single place. -/
def single (value : Value) : Except Fault Cell := do
  let cells ← Filling.bound 1 [value]
  return cells.headD .empty

/-! ## Recording -/

/-- Whether a row has the same identifier as another one. -/
def Row.replaces (new old : Row) : Bool := new.runId.isSome && old.runId == new.runId

/-- The history with one more row, in place of an earlier one with its identifier. -/
def insert (h : History) (row : Row) : History :=
  { h with rows := h.rows.filter (!row.replaces ·) ++ [row] }

/-- Keep a report. -/
def record (h : History) (draft : Draft) : Except Fault History :=
  h.whileOpen do
    let row ← Row.ofDraft draft
    return h.insert row

/-- Keep whatever is handed over as a report. -/
def recordValue (h : History) (report : Value) : Except Fault History :=
  h.whileOpen do
    let draft ← Draft.ofValue report
    h.record draft

/-! ## Reading -/

/-- The row of a run. -/
def find? (h : History) (runId : String) : Option Row := h.rows.find? (·.runId == some runId)

/-- The report of a run, if it is kept. -/
def get (h : History) (runId : Value) : Except Fault (Option Entry) :=
  h.whileOpen do
    let key ← single runId
    match key.forTexts.bind h.find? with
    | some row => some <$> row.entry
    | none => return none

/-- Whether a row comes before another one when the latest come first. -/
def isLater (a b : Row) : Bool := !Cell.lt a.startedAt b.startedAt

/-- The rows, the latest first. -/
def latestFirst (h : History) : List Row := h.rows.mergeSort isLater

/-- The refusal of a limit that is no whole number. -/
def badLimit : Fault := { kind := .storage "SQLITE_MISMATCH", message := "datatype mismatch" }

/-- The limit that a value sets: nothing for a negative number. -/
def limitOf (value : Value) : Except Fault (Option Nat) := do
  let cell ← single value
  match cell.forNumbers with
  | .integer i => return if i < 0 then none else some i.toNat
  | _ => throw badLimit

/-- The reports of the latest runs, as many as `limit` says, or as the settings say when it is
absent. -/
def list (h : History) (settings : Settings) (limit : Value) : Except Fault (List Entry) :=
  h.whileOpen do
    let count ← limitOf (match limit with
      | .absent => settings.listLimit
      | given => given)
    let rows := match count with
      | some n => h.latestFirst.take n
      | none => h.latestFirst
    rows.mapM Row.entry

/-! ## Forgetting -/

/-- Forget all runs, and say how many there were. -/
def clear (h : History) : Except Fault (Nat × History) :=
  h.whileOpen (.ok (h.rows.length, { h with rows := [] }))

/-- Forget the runs that started before a moment, and say how many there were. -/
def dropBefore (h : History) (moment : Value) : Except Fault (Nat × History) :=
  h.whileOpen do
    let bound ← single moment
    let isOld (row : Row) : Bool := Cell.lt row.startedAt bound.forNumbers
    return ((h.rows.filter isOld).length, { h with rows := h.rows.filter (!isOld ·) })

/-! ## Around the rows -/

/-- Overwrite the stored texts of a run. -/
def overwrite (h : History) (runId : String) (failures tasks : Option String) :
    Except Fault History :=
  h.whileOpen
    (.ok { h with rows := h.rows.map fun row =>
      if row.runId = some runId then
        { row with failures := failures.getD row.failures, tasks := tasks.getD row.tasks }
      else row })

/-- Close a history; closing it again changes nothing. -/
def close (h : History) : History := { h with isOpen := false }

/-- Close a history and open one at the same place: a file has kept its rows, the memory has not. -/
def reopen (h : History) (isFile : Bool) : History := { rows := if isFile then h.rows else [] }

end History

end BoundedJobs
