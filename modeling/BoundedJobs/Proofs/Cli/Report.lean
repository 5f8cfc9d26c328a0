import BoundedJobs.Proofs.Cli.Run
import BoundedJobs.Proofs.Runner.Pace

/-!
# The report of `run`

Whether a run comes to a report does not depend on the history, and neither does what the report
says. It names the commands and counts their failures whatever the clock shows; and if it starts at
a date and takes a finite time, then all its times are finite and can be stored.

* `World.report?` — the report that `run` comes to, if it comes to one;
* `Order.Says` — what the report says of the commands (`Order.says_of_answer`);
* `Order.times_of_answer` — its times are finite if its duration is;
* `World.run_of_report`, `World.run_of_none`, `World.run_of_unrecorded` — the end of `run` with a
  report, without one, and off the record.
-/

namespace BoundedJobs

namespace Cli

open State

namespace Order

variable (o : Order) {report : Report}

/-- **What the report of `run` says**, whatever the clock shows. -/
structure Says (report : Report) : Prop where
  /-- Its name is made from a number. -/
  runId : ∃ number, report.runId = reportId number
  /-- It has an outcome for each command, under the name of the command. -/
  names : report.tasks.map (·.name) = o.commands
  /-- There are as many failures as commands that have failed. -/
  failures : report.failures.length = report.tasks.countP (decide <| ·.status = .failed)
  maxParallel : report.maxParallel = .ofNat o.capacity
  startedAt : report.startedAt = o.world.clock
  durationMs : report.durationMs = report.finishedAt - report.startedAt

/-- The runner of `run` comes to its answer by moves. -/
theorem answered_eq_after : ∃ later, o.answered = o.first.after later := by
  obtain ⟨n, hn⟩ := drainWithin_eq_after o.first.effort o.first
  obtain ⟨moves, hmoves⟩ := fireWithin_eq_after (fun due => due != .nan)
    (fun s => (World.answer? s).isSome) (o.armed.respond (.settle o.request)).alarms
    (o.armed.respond (.settle o.request))
  refine ⟨List.replicate n .tick ++ moves, hmoves.trans ?_⟩
  rw [after_append, ← hn]
  rfl

variable {o}

theorem says_of_answer (answered : World.answer? o.answered = some (.ok report)) :
    o.Says report := by
  obtain ⟨later, hlater⟩ := o.answered_eq_after
  rw [hlater, answer?_eq] at answered
  -- what was tracked gives the tasks and the failures, what was read the times
  obtain ⟨hcarries, htracked⟩ := Crew.tracked_of_regular o.regular_armed o.request later
  have hreported : o.crew.Reported (o.first.after later) report := htracked.answered report answered
  obtain ⟨ended, ledger⟩ := htracked.ledger hreported.clean
  have haccounts : o.crew.Accounts o.request o.first later report ended :=
    ledger.accounts rfl hreported
  have hshows := Crew.shows_of_regular (fun _ => True) o.regular_armed o.request later
    (fun _ _ => trivial) fun _ _ _ _ => trivial
  rw [look_of_unlagged o.armed_unlagged] at hshows
  obtain ⟨hstarted, -, hduration⟩ := hshows.report report answered
  -- the id is given when the report is made
  obtain ⟨before, run, -, -, hmade⟩ := Crew.exists_resolved o.regular_armed o.request later answered
  refine ⟨⟨_, congrArg Report.runId hmade⟩, List.ext_getElem? fun place => ?_,
    haccounts.length_failures,
    Crew.maxParallel_of_answer o.regular_armed o.request later report answered,
    hstarted.trans o.armed_fields.2.2.1, hduration⟩
  rw [List.getElem?_map]
  cases hline : o.commands[place]? with
  | some line =>
    obtain ⟨outcome, ending, houtcome, htells⟩ := haccounts.exists_tells (o.task_of_line hline)
    rw [houtcome]
    exact congrArg some htells.name
  | none =>
    -- behind the last command there is nothing on either side
    have hlength : report.tasks.length = o.commands.length :=
      haccounts.length.trans (List.length_map _)
    rw [List.getElem?_eq_none (hlength ▸ List.getElem?_eq_none_iff.mp hline)]
    rfl

/-- The alarm of an interrupt is set some time ahead. -/
theorem rounded_armed (clock : o.world.clock.Exact) : o.armed.Rounded := by
  obtain ⟨-, -, hclock, -, htimers⟩ := o.armed_fields
  refine ⟨⟨hclock.symm ▸ clock, o.armed_unlagged⟩, fun timer hmem => ?_⟩
  rw [htimers] at hmem
  obtain ⟨delay, -, rfl⟩ := List.mem_map.mp hmem
  exact Number.exact_add _ _

/-- **The times in the report of `run`**: a run that starts at a date ends at a rounded number; and
if it takes a finite time, then so does everything in it. -/
theorem times_of_answer (clock : Timestamp.InRange o.world.clock)
    (answered : World.answer? o.answered = some (.ok report)) :
    report.finishedAt.Exact ∧ (report.durationMs.IsFinite →
      ∀ outcome ∈ report.tasks, outcome.waitedMs.IsFinite ∧ outcome.durationMs.IsFinite) := by
  have hclock : o.armed.clock ≠ .nan :=
    o.armed_fields.2.2.1.symm ▸ (Number.ne_nan_of_le clock.1).2
  obtain ⟨later, hlater, hpaced⟩ := exists_paced o.regular_armed
    (rounded_armed (Number.exact_of_inRange clock)) hclock o.request
    fun s => (World.answer? s).isSome
  change o.answered = _ at hlater
  rw [hlater, answer?_eq] at answered
  obtain ⟨-, hexact, hduration, hspans⟩ :=
    Crew.times_of_paced o.regular_armed o.armed_unlagged o.request later hpaced answered
  -- a difference of two moments of the run is no longer than the run
  have hfinite {n : Number} (finite : report.durationMs.IsFinite)
      (span : n.IsSpanOf (Number.Between report.startedAt report.finishedAt)) : n.IsFinite := by
    obtain ⟨late, early, hlate, hearly, rfl⟩ := span
    exact hlate.finite_sub hearly (hduration ▸ finite)
  exact ⟨hexact, fun finite outcome hmem =>
    ⟨hfinite finite (hspans outcome hmem).1, hfinite finite (hspans outcome hmem).2⟩⟩

end Order

namespace World

variable {w : World} {level : Log.Level} {commands : List String} {jobs : Option Number}
  {quiet : Bool} {interrupt : Option Number} {report : Report}

/-- The report that `run` comes to, if it gets a limiter and its commands have an answer. -/
def report? (w : World) (level : Log.Level) (commands : List String) (jobs : Option Number)
    (quiet : Bool) (interrupt : Option Number) : Option Report :=
  match (w.limiter level jobs).result with
  | .error _ => none
  | .ok limiter =>
    let opened := w.opened level limiter.slots commands quiet interrupt
    match answer? (opened.runUntil fun s => (answer? s).isSome) with
    | some (.ok report) => some report
    | _ => none

theorem report?_of_limiter {limiter : Limiter Nat}
    (limits : (w.limiter level jobs).result = .ok limiter) (record : Bool) :
    w.report? level commands jobs quiet interrupt = some report ↔
      answer? (w.order level commands quiet record interrupt limiter).answered
        = some (.ok report) := by
  unfold report?
  rw [limits]
  dsimp only
  rw [runUntil_opened limits commands quiet record interrupt]
  split
  · next other hanswer =>
    rw [hanswer, Option.some.injEq, Option.some.injEq, Except.ok.injEq]
  · next hanswer => exact ⟨fun h => absurd h (by simp), fun h => absurd h (hanswer report)⟩

theorem exists_order_of_report? (h : w.report? level commands jobs quiet interrupt = some report)
    (record : Bool) : ∃ limiter, (w.limiter level jobs).result = .ok limiter ∧
      answer? (w.order level commands quiet record interrupt limiter).answered
        = some (.ok report) := by
  cases limits : (w.limiter level jobs).result with
  | error fault =>
    unfold report? at h
    rw [limits] at h
    cases h
  | ok limiter => exact ⟨limiter, rfl, (report?_of_limiter limits record).mp h⟩

/-- **The end of `run` with a report** that is kept without a fault. -/
theorem run_of_report (h : w.report? level commands jobs quiet interrupt = some report)
    (kept : w.history.record (.ofReport report) = .ok (w.history.insert (.ofReport report)))
    (record : Bool) :
    let ran := w.run level commands jobs quiet record interrupt
    ran.2.stdout = reportText report ∧ ran.2.failed = !report.failures.isEmpty ∧
      ran.1.history = if record && w.settings.historyEnabled then
          w.history.insert (.ofReport report)
        else w.history := by
  intro ran
  obtain ⟨limiter, limits, hanswer⟩ := exists_order_of_report? h record
  have hran : ran = _ := run_eq limits commands quiet record interrupt
  let s := (w.order level commands quiet record interrupt limiter).answered
  obtain ⟨houtput, hhistory⟩ := closing_of_answer (w := w) hanswer (w.base level jobs) record
  -- the output before the report does not matter for how the command ends
  obtain ⟨-, hfailed, -, hafter⟩ :=
    concluded_of_record (w := { w with clock := s.clock, reports := s.reports }) record kept
      (written (w.base level jobs) s)
  rw [hran]
  refine ⟨?_, ?_, hhistory.trans hafter⟩
  · rw [houtput, concluded_stdout]
    exact String.empty_append
  · rw [houtput, hfailed]
    exact Bool.false_or _

/-- **The end of `run` without a report** leaves the history as it is. -/
theorem run_of_none (h : w.report? level commands jobs quiet interrupt = none) (record : Bool) :
    (w.run level commands jobs quiet record interrupt).1.history = w.history := by
  cases limits : (w.limiter level jobs).result with
  | error fault => rw [run_of_fault limits]
  | ok limiter =>
    rw [run_eq limits]
    unfold closing
    dsimp only
    split
    · next report hanswer =>
      rw [(report?_of_limiter limits record).mpr hanswer] at h
      cases h
    · rfl
    · rfl

/-- A run that is not to be recorded leaves the history as it is. -/
theorem run_of_unrecorded {record : Bool} (off : (record && w.settings.historyEnabled) = false) :
    (w.run level commands jobs quiet record interrupt).1.history = w.history := by
  cases limits : (w.limiter level jobs).result with
  | error fault => rw [run_of_fault limits]
  | ok limiter =>
    rw [run_eq limits]
    cases hanswer : answer? (w.order level commands quiet record interrupt limiter).answered with
    | none => rw [closing, hanswer]
    | some answer =>
      cases answer with
      | error fault => rw [closing, hanswer]
      | ok report =>
        rw [(closing_of_answer hanswer (w.base level jobs) record).2]
        unfold concluded
        dsimp only
        rw [off, if_neg Bool.false_ne_true]
        cases report.failures <;> rfl

end World

end Cli

end BoundedJobs
