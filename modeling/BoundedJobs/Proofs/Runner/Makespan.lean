import BoundedJobs.Proofs.ListScheduling
import BoundedJobs.Proofs.Runner.Timeline

/-!
# How long a run takes

A limiter never leaves a slot idle while a task waits. A run on a limiter that is idle otherwise
therefore goes through the greedy schedule of its tasks, and takes hardly longer than the tasks
would if they could be spread evenly over the slots, whatever their order: `durationMs_of_stints`.

The bounds are those of the time that passes. What the report shows is the number nearest to it,
and beyond 53 binary digits that may be another one (`durationMs_of_longStints`), though never one
below the longest task (`Number.ofNat_mono`).
-/

namespace BoundedJobs

open Crew State Schedule

/-- **The time that a run takes.** Tasks that take some whole milliseconds each are run on a limiter
that is idle otherwise, while the clock shows dates. The run takes no less time than its longest
task, and on all slots together no less than all tasks. With one slot it takes just that; with more
slots it takes at most the longest task once more on each of the others. The report shows the number
nearest to this time, which is the time itself up to 53 binary digits, and never less than the
longest task. -/
theorem durationMs_of_stints {capacity : Nat} (positive : 0 < capacity) (clock : Number)
    (level : Log.Level) (shell : Shell) (before : List Move) (request : Request)
    (stints : List Stint) (opened : Int) :
    let origin := (fresh positive clock level shell).after before
    let durations := stints.map Stint.duration
    origin.queue = [] → origin.unsettled = [] → origin.timers = [] → origin.clock = .ofInt opened →
    origin.lags = [] → -(Timestamp.bound : Int) ≤ opened →
    opened + makespan capacity durations ≤ Timestamp.bound →
    request.tasks = stints.map Stint.task → request.strict = false →
    (request.signal = .aborted → ∀ stint ∈ stints, stint.onAbort = none) →
    ∃ report, ∃ total : Nat,
      (ofRequest origin request).answer? (origin.respond (.settle request)).runOut
        = some (.ok report) ∧
      report.durationMs = .ofNat total ∧
      longest durations ≤ total ∧
      durations.sum ≤ capacity * total ∧
      capacity * total ≤ durations.sum + (capacity - 1) * longest durations ∧
      Number.le (.ofNat (longest durations)) report.durationMs = true ∧
      (total ≤ Number.exactBound → report.durationMs = .finite total) := by
  intro origin durations quiet idle timers clock_eq unlagged lower upper tasks lenient unheeded
  obtain ⟨begun, admitted, hline⟩ := inLine_after positive clock level shell before
  have henrolled := enrolled_after positive clock level shell before
  -- the run is the list schedule of its stints on an idle limiter
  let plan : Plan :=
    { capacity, positive, crew := ofRequest origin request, request, stints, tasks, lenient,
      unheeded, opened, lower, upper }
  obtain ⟨report, hanswer, -, hduration, -⟩ :=
    (Plan.concluded_of_idle (p := plan) hline henrolled quiet idle timers rfl clock_eq
      unlagged).report
  have hlongest := longest_le_makespan capacity durations
  refine ⟨report, makespan capacity durations, hanswer, hduration, hlongest,
    sum_le_makespan positive durations, makespan_mul_le positive durations, ?_, fun hexact => ?_⟩
  · -- rounding keeps the order, so the longest task stays within the time shown
    rw [hduration]
    exact Number.ofNat_mono hlongest
  · rw [hduration]
    exact Number.ofNat_of_le hexact

/-- The bounds are met on two slots that three tasks share. The last task takes the slot of the
second one, and ends together with the first. -/
theorem durationMs_of_sharedSlots :
    let origin := (fresh Nat.two_pos 0 .info []).after []
    let request : Request := { label := "run", tasks := sharedSlots.map Stint.task }
    ∃ report, ∃ total : Nat,
      (ofRequest origin request).answer? (origin.respond (.settle request)).runOut
        = some (.ok report) ∧
      report.durationMs = .finite total ∧ 5 ≤ total ∧ 10 ≤ 2 * total ∧ 2 * total ≤ 15 := by
  intro origin request
  obtain ⟨report, total, hanswer, -, hlongest, hsum, hbound, -, hexact⟩ :=
    durationMs_of_stints Nat.two_pos 0 .info [] [] request sharedSlots 0 rfl rfl rfl rfl rfl
      (by decide) (by decide) rfl rfl (fun haborted => absurd haborted (by decide))
  change 5 ≤ total at hlongest
  change 10 ≤ 2 * total at hsum
  change 2 * total ≤ 15 at hbound
  -- the time is short enough to be shown as it is
  have htotal : total ≤ Number.exactBound := by
    change total ≤ 9007199254740992
    omega
  exact ⟨report, total, hanswer, hexact htotal, hlongest, hsum, hbound⟩

/-- A run that begins with the first date takes one millisecond more than its report shows, so that
twice the reported time is less than that of its tasks. -/
theorem durationMs_of_longStints :
    let opened : Int := -Timestamp.bound
    let origin := (fresh Nat.two_pos (.ofInt opened) .info []).after []
    let request : Request := { label := "run", tasks := longStints.map Stint.task }
    let durations := longStints.map Stint.duration
    opened + makespan 2 durations ≤ Timestamp.bound ∧
      ∃ report, (ofRequest origin request).answer? (origin.respond (.settle request)).runOut
          = some (.ok report) ∧
        ∃ shown : Nat, report.durationMs = .finite shown ∧ 2 * shown < durations.sum := by
  intro opened origin request durations
  -- the rounding is that of the subtraction, so it is computed
  have hshown : (((ofRequest origin request).answer?
      (origin.respond (.settle request)).runOut).bind (·.toOption)).map (·.durationMs)
      = some (.finite (9007199254740992 : Nat)) := by
    decide +kernel
  obtain ⟨report, hreport, hduration⟩ := Option.map_eq_some_iff.mp hshown
  exact ⟨by decide +kernel, report, eq_ok_of_toOption hreport, 9007199254740992, hduration,
    by decide⟩

end BoundedJobs
