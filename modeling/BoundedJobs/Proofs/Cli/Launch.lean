import BoundedJobs.Proofs.Cli.Report

/-!
# What a launch does to the history

A launch carries out one command line in a world of its own, with the history that it finds there.
It clears the history, puts a run on record in it, or leaves it as it is; and what it prints is told
from the history alone if it is asked for the runs in it.

* `Launch`, `Launch.carriedOut` — a launch, and what it leaves behind;
* `Launch.recorded?`, `Launch.clears` — what it does to the history, read off its command line;
* `Launch.history_of_none`, `Launch.carriedOut_of_clear`, `Launch.carriedOut_of_recorded?` — the
  three cases, with what is printed;
* `Launch.carriedOut_of_list`, `Launch.carriedOut_of_refused` — lists of runs;
* `Recorded.exists_order`, `Recorded.record_eq` — the report of a run on record, and that it can be
  stored.
-/

namespace BoundedJobs

namespace Cli

/-- A command line that is carried out in a world, whatever history it finds there. -/
structure Launch where
  world : World
  arguments : List String
  interrupt : Option Number := none

/-- A run that is put on record: its commands, and the report that they have come to. -/
structure Recorded where
  commands : List String
  report : Report

namespace Launch

/-- What a launch leaves behind when it finds the given history. -/
def carriedOut (l : Launch) (history : History) : World × Output :=
  { l.world with history }.execute l.arguments l.interrupt

/-- The run that is put on record, if there is to be one and it comes to a report. -/
def recorded? (l : Launch) : Option Recorded :=
  match read l.arguments with
  | .invoke { debug, action := .run commands jobs quiet record } =>
    if record && l.world.settings.historyEnabled then
      (l.world.report? (if debug then .debug else .info) commands jobs quiet l.interrupt).map
        fun report => { commands, report }
    else none
  | _ => none

/-- Whether the history is cleared. -/
def clears (l : Launch) : Bool :=
  match read l.arguments with
  | .invoke { action := .history _ true, .. } => true
  | _ => false

end Launch

/-! ## What a launch does to the history -/

namespace World

theorem outlast_history (w : World) (interrupt : Option Number) (output : Output) :
    (w.outlast interrupt output).history = w.history := by
  unfold outlast
  split <;> rfl

theorem limiter_with_history (w : World) (history : History) :
    { w with history }.limiter = w.limiter := rfl

theorem opened_with_history (w : World) (history : History) :
    { w with history }.opened = w.opened := rfl

/-- The report of `run` does not depend on the history. -/
theorem report?_with_history (w : World) (history : History) :
    { w with history }.report? = w.report? := by
  funext level commands jobs quiet interrupt
  unfold report?
  rw [limiter_with_history, opened_with_history]

/-- Listing the runs changes nothing. -/
theorem list_world (w : World) (level : Log.Level) (limit : Option Number) :
    (w.list level limit false).1 = w := by
  unfold list
  rw [if_neg Bool.false_ne_true]
  split
  · rfl
  · rfl
  · split <;> rfl

end World

namespace Launch

variable {l : Launch} {h : History}

/-- A launch that asks for the history does as the command does. -/
theorem carriedOut_of_history {debug clear : Bool} {limit : Option Number}
    (reads : read l.arguments = .invoke { debug, action := .history limit clear }) :
    let listed := { l.world with history := h }.list (if debug then .debug else .info) limit clear
    (l.carriedOut h).1.history = listed.1.history ∧ (l.carriedOut h).2 = listed.2 := by
  unfold carriedOut World.execute
  rw [reads]
  exact ⟨World.outlast_history .., rfl⟩

/-- **A launch that neither clears the history nor puts a run on record** leaves it as it is. -/
theorem history_of_none (clears : l.clears = false) (recorded : l.recorded? = none) :
    (l.carriedOut h).1.history = h := by
  unfold Launch.clears at clears
  unfold recorded? at recorded
  cases hread : read l.arguments with
  | print text | refuse text =>
    unfold carriedOut World.execute
    rw [hread]
  | invoke invocation =>
    obtain ⟨debug, action⟩ := invocation
    rw [hread] at clears recorded
    cases action with
    | run commands jobs quiet record =>
      unfold carriedOut World.execute
      rw [hread]
      dsimp only at recorded
      -- there is no report, or it is not to be recorded
      split at recorded
      · rw [← World.report?_with_history _ h] at recorded
        exact World.run_of_none (Option.map_eq_none_iff.mp recorded) record
      · next off => exact World.run_of_unrecorded (Bool.eq_false_iff.mpr off)
    | capacity | dockerInfo =>
      unfold carriedOut World.execute
      rw [hread]
      exact World.outlast_history ..
    | history limit clear =>
      cases clear with
      | true => cases clears
      | false =>
        exact (carriedOut_of_history hread).1.trans (congrArg World.history (World.list_world ..))

/-- **A launch that clears the history** says how many runs there were. -/
theorem carriedOut_of_clear {debug : Bool} {limit : Option Number} (isOpen : h.isOpen = true)
    (reads : read l.arguments = .invoke { debug, action := .history limit true }) :
    (l.carriedOut h).1.history = { h with rows := [] } ∧
      (l.carriedOut h).2.stdout
        = asLine ("Deleted " ++ toString h.rows.length ++ " run(s).") ∧
      (l.carriedOut h).2.stderr = "" ∧ (l.carriedOut h).2.failed = false := by
  have hclear : h.clear = .ok (h.rows.length, { h with rows := [] }) :=
    History.whileOpen_eq isOpen _
  obtain ⟨hhistory, houtput⟩ := carriedOut_of_history (h := h) reads
  rw [hhistory, houtput]
  unfold World.list
  dsimp only
  rw [if_pos rfl, hclear]
  exact ⟨rfl, rfl, rfl, rfl⟩

/-- What puts a run on record is a command line for the run. -/
theorem exists_run_of_recorded? {r : Recorded} (recorded : l.recorded? = some r) :
    ∃ debug jobs quiet record,
      read l.arguments = .invoke { debug, action := .run r.commands jobs quiet record } ∧
      (record && l.world.settings.historyEnabled) = true ∧
      l.world.report? (if debug then .debug else .info) r.commands jobs quiet l.interrupt
        = some r.report := by
  unfold recorded? at recorded
  split at recorded
  · next debug commands jobs quiet record hread =>
    split at recorded
    · next on =>
      obtain ⟨report, hreport, rfl⟩ := Option.map_eq_some_iff.mp recorded
      exact ⟨debug, jobs, quiet, record, hread, on, hreport⟩
    · cases recorded
  · cases recorded

/-- A command line for a run puts the run on record, unless it is to be kept off it. -/
theorem recorded?_runLine {jobs : Option String} {debug quiet record : Bool}
    {commands : List String} (accepted : ∀ text ∈ jobs, (countOf? text).isSome = true)
    (ne : commands ≠ []) (arguments : l.arguments = runLine debug jobs quiet record commands) :
    l.recorded? =
      if record && l.world.settings.historyEnabled then
        (l.world.report? (if debug then .debug else .info) commands (jobs.bind countOf?) quiet
          l.interrupt).map fun report => { commands, report }
      else none := by
  unfold recorded?
  rw [arguments, read_runLine accepted debug ne]

theorem recorded?_of_report? {jobs : Option String} {debug quiet : Bool} {commands : List String}
    {report : Report} (accepted : ∀ text ∈ jobs, (countOf? text).isSome = true)
    (ne : commands ≠ []) (arguments : l.arguments = runLine debug jobs quiet true commands)
    (enabled : l.world.settings.historyEnabled = true)
    (reported : l.world.report? (if debug then .debug else .info) commands (jobs.bind countOf?)
      quiet l.interrupt = some report) : l.recorded? = some { commands, report } := by
  rw [recorded?_runLine accepted ne arguments, enabled, Bool.and_self, if_pos rfl, reported]
  rfl

/-- A command line for a run clears nothing. -/
theorem clears_runLine {jobs : Option String} {debug quiet record : Bool} {commands : List String}
    (accepted : ∀ text ∈ jobs, (countOf? text).isSome = true) (ne : commands ≠ [])
    (arguments : l.arguments = runLine debug jobs quiet record commands) : l.clears = false := by
  unfold clears
  rw [arguments, read_runLine accepted debug ne]

theorem clears_of_recorded? {r : Recorded} (recorded : l.recorded? = some r) :
    l.clears = false := by
  obtain ⟨debug, jobs, quiet, record, hread, -⟩ := exists_run_of_recorded? recorded
  unfold clears
  rw [hread]

/-- **A launch that puts a run on record** adds its row, and prints its report. -/
theorem carriedOut_of_recorded? {r : Recorded} (recorded : l.recorded? = some r)
    (kept : h.record (.ofReport r.report) = .ok (h.insert (.ofReport r.report))) :
    (l.carriedOut h).1.history = h.insert (.ofReport r.report) ∧
      (l.carriedOut h).2.stdout = reportText r.report ∧
      (l.carriedOut h).2.failed = !r.report.failures.isEmpty := by
  obtain ⟨debug, jobs, quiet, record, hread, hon, hreport⟩ := exists_run_of_recorded? recorded
  rw [← World.report?_with_history _ h] at hreport
  obtain ⟨hprinted, hfailed, hhistory⟩ := World.run_of_report hreport kept record
  rw [if_pos hon] at hhistory
  unfold carriedOut World.execute
  rw [hread]
  exact ⟨hhistory, hprinted, hfailed⟩

/-- **A launch that lists runs** prints their lines, or that there are none. -/
theorem carriedOut_of_list {debug : Bool} {limit : Option Number} {entries : List History.Entry}
    {lines : List String}
    (reads : read l.arguments = .invoke { debug, action := .history limit false })
    (listed : h.list l.world.settings (limit.elim .absent .number) = .ok entries)
    (told : historyLines entries = (lines, none)) :
    (l.carriedOut h).2.stdout
        = (if entries.isEmpty then asLine "No runs recorded." else asLines lines) ∧
      (l.carriedOut h).2.stderr = "" ∧ (l.carriedOut h).2.failed = false := by
  rw [(carriedOut_of_history reads).2]
  unfold World.list
  dsimp only
  rw [if_neg Bool.false_ne_true, listed]
  cases entries with
  | nil => exact ⟨rfl, rfl, rfl⟩
  | cons entry entries =>
    dsimp only
    rw [told]
    exact ⟨rfl, rfl, rfl⟩

/-- A launch that cannot list runs prints none. -/
theorem carriedOut_of_refused {debug : Bool} {limit : Option Number} {fault : Fault}
    (reads : read l.arguments = .invoke { debug, action := .history limit false })
    (refused : h.list l.world.settings (limit.elim .absent .number) = .error fault) :
    (l.carriedOut h).2.stdout = "" ∧ (l.carriedOut h).2.failed = true := by
  rw [(carriedOut_of_history reads).2]
  unfold World.list
  dsimp only
  rw [if_neg Bool.false_ne_true, refused]
  exact ⟨rfl, rfl⟩

end Launch

/-! ## Runs on record -/

namespace Recorded

variable {r : Recorded} {l : Launch} {h : History}

/-- The report of a run on record is the answer to an order for its commands. -/
theorem exists_order (recorded : l.recorded? = some r) :
    ∃ o : Order, o.commands = r.commands ∧ World.answer? o.answered = some (.ok r.report) := by
  obtain ⟨_, _, _, record, -, -, hreport⟩ := l.exists_run_of_recorded? recorded
  obtain ⟨limiter, -, hanswer⟩ := World.exists_order_of_report? hreport record
  exact ⟨_, rfl, hanswer⟩

/-- The numbers in the report of a run on record can be stored. -/
theorem record_eq (recorded : l.recorded? = some r) (isOpen : h.isOpen = true)
    (started : Timestamp.InRange r.report.startedAt) (ended : r.report.durationMs.IsFinite) :
    h.record (.ofReport r.report) = .ok (h.insert (.ofReport r.report)) := by
  obtain ⟨o, -, hanswer⟩ := exists_order recorded
  have hsaid := Order.says_of_answer hanswer
  refine History.record_of_ne_nan isOpen ?_ (Number.ne_nan_of_le started.1).2 fun hnan => ?_
  · rw [hsaid.maxParallel]
    exact Number.nearest_ne_nan _
  · obtain ⟨q, hq⟩ := ended
    rw [hsaid.durationMs, hnan] at hq
    cases hq

end Recorded

end Cli

end BoundedJobs
