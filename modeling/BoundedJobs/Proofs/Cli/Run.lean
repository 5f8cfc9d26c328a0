import BoundedJobs.Proofs.Cli.Arguments
import BoundedJobs.Proofs.Cli.Capacity
import BoundedJobs.Proofs.History.Recording

/-!
# What `run` leaves behind

When the commands of `run` have their answer, the report is printed and recorded, and the failures
are told of. What that comes to is read off the course of the run alone: which commands have
succeeded, and in which order they have ended.

* `Order.Reports.verdicts_eq`, `Order.Reports.length_failures` — the report and the verdicts;
* `Order.Reports.isLossless` — a report of `run` loses nothing when it is recorded;
* `Order.Leaves` — what `run` leaves behind, and `Order.Reports.leaves`, that it does so;
* `World.Sizes` — the sizes that `run` takes, and `World.exists_limiter_of_sizes`, that it gets a
  limiter;
* `World.leaves_of_course` — every course of `run` ends in that way, and `run` takes one.
-/

namespace BoundedJobs

theorem Number.IsReading.isSafe {n : Number} (h : n.IsReading) : n.IsSafe := by
  obtain ⟨i, hi, rfl⟩ := h
  exact ⟨i, hi.trans_lt (by decide), whole_of_natAbs_le_bound hi⟩

theorem Number.IsSpan.legible {n : Number} (h : n.IsSpan) : Json.Legible n := by
  obtain ⟨i, hi, hwhole, rfl⟩ := h.exists_whole
  exact Json.legible_of_whole hi hwhole

namespace Cli

open State

/-! ## The report and the verdicts -/

namespace Order.Reports

variable {o : Order} {later : List Move} {report : Report} {ended : List (Nat × Ending)}

theorem length_tasks (h : o.Reports later report ended) :
    report.tasks.length = o.commands.length :=
  h.accounts.length.trans (List.length_map _)

/-- The verdicts are those of the outcomes. -/
theorem verdicts_eq (h : o.Reports later report ended) :
    o.verdicts later = report.tasks.map fun outcome => decide (outcome.status = .ok) := by
  refine List.ext_getElem? fun place => ?_
  rw [List.getElem?_map]
  cases hline : o.commands[place]? with
  | some line =>
    obtain ⟨outcome, houtcome, -, hverdict⟩ := h.outcome place line hline
    rw [hverdict, houtcome]
    rfl
  | none =>
    have hlength : (o.verdicts later).length = o.commands.length := by
      unfold Order.verdicts
      rw [List.length_map, List.length_zipIdx]
    have hle := List.getElem?_eq_none_iff.mp hline
    rw [List.getElem?_eq_none (hlength ▸ hle), List.getElem?_eq_none (h.length_tasks ▸ hle)]
    rfl

/-- There are as many failures as commands that have not succeeded. -/
theorem length_failures (h : o.Reports later report ended) :
    report.failures.length = (o.verdicts later).count false := by
  rw [h.accounts.length_failures, h.verdicts_eq, List.count_eq_countP, List.countP_map]
  refine List.countP_congr fun outcome _ => ?_
  cases hstatus : outcome.status <;> simp [hstatus]

/-- **There is a failure** exactly if some command has not succeeded. -/
theorem failures_eq_nil_iff (h : o.Reports later report ended) :
    report.failures = [] ↔ false ∉ o.verdicts later := by
  rw [← List.length_eq_zero_iff, h.length_failures, List.count_eq_zero]

/-- **A report of `run` loses nothing** when it is recorded, whatever the names and messages in
it. -/
theorem isLossless (h : o.Reports later report ended) (small : o.capacity < Number.exactBound) :
    report.IsLossless where
  maxParallel := by
    rw [h.maxParallel]
    exact ⟨o.capacity, small, Number.ofNat_of_le small.le⟩
  startedAt := h.shows.startedAt.isSafe
  finishedAt := h.shows.finishedAt.isSafe
  tasks := fun outcome hmem =>
    ⟨(h.spans outcome hmem).1.legible, (h.spans outcome hmem).2.legible⟩
  durationMs := h.shows.durationMs

end Order.Reports

/-! ## The printed report -/

/-- The mark of a command in the printed report. -/
def markOf (succeeded : Bool) : String := if succeeded then "[+] " else "[x] "

/-- The line of a task starts with its mark and its name. -/
theorem taskLine_eq (outcome : Outcome) : ∃ rest,
    taskLine outcome = markOf (decide (outcome.status = .ok)) ++ outcome.name ++ rest := by
  unfold taskLine
  refine ⟨" (" ++ outcome.durationMs.text ++ "ms)" ++
    (outcome.error.filter (!·.isEmpty)).elim "" fun text => " " ++ text, ?_⟩
  cases outcome.status <;> simp only [String.append_assoc] <;> rfl

namespace World

variable {w : World} {level : Log.Level} {jobs : Option Number}

/-- A report that is kept without a fault is recorded where it is to be. -/
theorem concluded_of_record {report : Report} (record : Bool)
    (kept : w.history.record (.ofReport report) = .ok (w.history.insert (.ofReport report)))
    (output : Output) :
    let concluded := w.concluded report record output
    concluded.2.stderr
        = output.stderr ++ (if report.failures = [] then "" else failureText report) ∧
      concluded.2.failed = (output.failed || !report.failures.isEmpty) ∧
      concluded.2.exited = output.exited ∧
      concluded.1.history =
        if record && w.settings.historyEnabled then w.history.insert (.ofReport report)
        else w.history := by
  -- recording cannot fail here, whether it is wanted or not
  have hrecorded : (if record && w.settings.historyEnabled then w.history.record (.ofReport report)
      else .ok w.history)
      = .ok (if record && w.settings.historyEnabled then w.history.insert (.ofReport report)
          else w.history) := by
    rw [kept]
    split <;> rfl
  unfold concluded
  dsimp only
  rw [hrecorded]
  cases report.failures with
  | nil => exact ⟨String.append_empty.symm, (Bool.or_false _).symm, rfl, rfl⟩
  | cons failure failures => exact ⟨rfl, (Bool.or_true _).symm, rfl, rfl⟩

/-- `run` closes with the end of its report. -/
theorem closing_of_answer {s : State} {report : Report} (answered : answer? s = some (.ok report))
    (base : Output) (record : Bool) :
    let concluded :=
      { w with clock := s.clock, reports := s.reports }.concluded report record (written base s)
    (w.closing base record s).2 = concluded.2 ∧
      (w.closing base record s).1.history = concluded.1.history := by
  unfold closing
  dsimp only
  rw [answered]
  dsimp only
  refine ⟨rfl, ?_⟩
  split <;> rfl

end World

/-! ## What is left behind -/

/-- **What `run` leaves behind** when it is asked in a world with an output and has taken a course:
the world and the output after it. -/
structure Order.Leaves (o : Order) (base : Output) (later : List Move) (report : Report)
    (ended : List (Nat × Ending)) (closed : World × Output) : Prop where
  /-- The report is that of the course. The commands ended in the order of the list, and so do the
  failures stand. -/
  reports : o.Reports later report ended
  /-- The printed report has an entry for each command, in the order of the arguments, with the mark
  of its verdict. The last line counts the entries, and those of them that are marked as failed. -/
  stdout : ∃ entries : List String, entries.length = o.commands.length ∧
    (∀ (place : Nat) (line : String), o.commands[place]? = some line → ∃ verdict rest,
      (o.verdicts later)[place]? = some verdict ∧
        entries[place]? = some (markOf verdict ++ line ++ rest)) ∧
    closed.2.stdout = asLines (entries ++
      ["\n" ++ toString o.commands.length ++ " job(s), "
        ++ toString ((o.verdicts later).count false) ++ " failed, " ++ report.durationMs.text
        ++ "ms at -j" ++ (Number.ofNat o.capacity).text])
  /-- The messages of the failures come last on the error stream, if there are any. -/
  stderr : closed.2.stderr = base.stderr ++ asLines (World.linesOf (o.first.after later).events) ++
    if false ∈ o.verdicts later then "\nRun failed:\n" ++ "\n".intercalate report.failures ++ "\n"
    else ""
  /-- The exit code is that of a failure exactly if some command has not succeeded. -/
  failed : closed.2.failed = true ↔ false ∈ o.verdicts later
  exited : closed.2.exited = false
  /-- One run is added to the history if it is to be recorded, and none otherwise. -/
  history : if o.record && o.world.settings.historyEnabled then
      o.world.history.Adds report closed.1.history
    else closed.1.history = o.world.history

namespace Order.Reports

variable {o : Order} {later : List Move} {report : Report} {ended : List (Nat × Ending)}

/-- The printed report in terms of the verdicts. -/
theorem exists_entries (h : o.Reports later report ended) :
    ∃ entries : List String, entries.length = o.commands.length ∧
      (∀ (place : Nat) (line : String), o.commands[place]? = some line → ∃ verdict rest,
        (o.verdicts later)[place]? = some verdict ∧
          entries[place]? = some (markOf verdict ++ line ++ rest)) ∧
      reportText report = asLines (entries ++
        ["\n" ++ toString o.commands.length ++ " job(s), "
          ++ toString ((o.verdicts later).count false) ++ " failed, " ++ report.durationMs.text
          ++ "ms at -j" ++ (Number.ofNat o.capacity).text]) := by
  refine ⟨report.tasks.map taskLine, (List.length_map _).trans h.length_tasks,
    fun place line hline => ?_, ?_⟩
  · obtain ⟨outcome, houtcome, hname, hverdict⟩ := h.outcome place line hline
    obtain ⟨rest, hrest⟩ := taskLine_eq outcome
    refine ⟨_, rest, hverdict, ?_⟩
    rw [List.getElem?_map, houtcome, ← hname]
    exact congrArg some hrest
  · unfold reportText summaryLine
    rw [h.length_tasks, h.length_failures, h.maxParallel]

/-- **The end of `run`** after a course with a report. -/
theorem leaves (h : o.Reports later report ended) (small : o.capacity < Number.exactBound)
    (opened : o.world.history.isOpen = true) (jobs : Option Number) :
    o.Leaves (o.world.base o.level jobs) later report ended
      (o.world.closing (o.world.base o.level jobs) o.record (o.first.after later)) := by
  -- the report can be recorded because every number of it can be spelled
  have hlossless := h.isLossless small
  let base := o.world.base o.level jobs
  let s := o.first.after later
  obtain ⟨houtput, hkept⟩ := World.closing_of_answer (w := o.world) h.answer base o.record
  obtain ⟨hstderr, hfailed, hexited, hhistory⟩ :=
    World.concluded_of_record (w := { o.world with clock := s.clock, reports := s.reports })
      o.record (History.record_of_isLossless opened hlossless) (World.written base s)
  rw [← houtput] at hstderr hfailed hexited
  rw [← hkept] at hhistory
  obtain ⟨entries, hlength, hentries, htext⟩ := h.exists_entries
  -- there are failures exactly if some child failed
  have hnil := h.failures_eq_nil_iff
  refine ⟨h, ⟨entries, hlength, hentries, ?_⟩, ?_, ?_, hexited, ?_⟩
  · rw [houtput, World.concluded_stdout, htext]
    exact String.empty_append
  · rw [hstderr]
    by_cases hmem : false ∈ o.verdicts later
    · rw [if_neg fun hnone => hnil.mp hnone hmem, if_pos hmem]
      rfl
    · rw [if_pos (hnil.mpr hmem), if_neg hmem]
      rfl
  · rw [hfailed, ← not_iff_not, ← hnil, ← List.isEmpty_iff]
    change ¬ (false || !report.failures.isEmpty) = true ↔ _
    simp
  · rw [hhistory]
    split
    · exact History.adds_insert opened hlossless
    · rfl

end Order.Reports

/-! ## The size of a run -/

namespace World

variable {w : World} {level : Log.Level} {jobs : Option Number}

/-- **The sizes that `run` takes**: the value of an option, or none on a machine with a whole number
of CPUs whose settings can be read. -/
def Sizes (w : World) : Option Number → Prop
  | some cap => ∃ text, countOf? text = some cap
  | none => (∃ name, w.settings.capVariable = .ok name) ∧
      ∃ machine : Int, 0 < machine ∧ machine < 2 ^ 53 ∧ w.cpuCount = .number (.finite machine)

/-- **`run` gets a limiter** for such a size. -/
theorem exists_limiter_of_sizes (level : Log.Level) (sized : w.Sizes jobs)
    (clock : Timestamp.InRange w.clock) :
    ∃ limiter, (w.limiter level jobs).result = .ok limiter ∧
      limiter.slots.capacity < Number.exactBound := by
  cases jobs with
  | some cap =>
    -- a number from the command line is below the bound of the option
    obtain ⟨text, htext⟩ := sized
    rw [countOf?_eq] at htext
    obtain ⟨count, hcount, rfl⟩ := Option.map_eq_some_iff.mp htext
    obtain ⟨hpositive, hsmall⟩ := Capacity.bounds_of_wanted? hcount
    have hwhole : Number.ofNat count = .finite ((count : Int) : Rat) :=
      Number.ofNat_of_le hsmall.le
    obtain ⟨limiter, hsize, hresult⟩ := Limiter.exists_announced (α := Nat)
      (s := w.surroundings level) .override clock (Int.natCast_pos.mpr hpositive) hwhole [] 0
    refine ⟨limiter, ?_, ?_⟩
    · rw [← hwhole] at hresult
      exact hresult
    · rwa [Int.ofNat.inj hsize.slots]
  | none =>
    -- without one the cap is at most what the machine has
    obtain ⟨⟨name, hname⟩, machine, hpositive, hsmall, hcpu⟩ := sized
    obtain ⟨limiter, hresult, hbound⟩ := exists_limiter level hpositive
      (Number.represented_intCast (by omega)) hcpu clock hname
    refine ⟨limiter, hresult, ?_⟩
    change _ < 2 ^ 53
    omega

/-- **What `run` leaves behind.** In a world with a working history, any commands and any size that
`run` takes have a limiter; and on every course, when all children have reported, the printed
report, the error stream, the exit code and the history are those of the course. The command takes
such a course if everything is timed, and so do the command lines that spell it. -/
theorem leaves_of_course (level : Log.Level) (commands : List String) (quiet record : Bool)
    (interrupt : Option Number) (now : w.clock.IsReading) (opened : w.history.isOpen = true)
    (sized : w.Sizes jobs) :
    ∃ limiter, (w.limiter level jobs).result = .ok limiter ∧
      let o := w.order level commands quiet record interrupt limiter
      let base := w.base level jobs
      (∀ later, o.Course later → ∃ report ended,
        o.Leaves base later report ended (w.closing base record (o.first.after later))) ∧
      (o.IsTimed → ∃ later, o.Course later ∧
        w.run level commands jobs quiet record interrupt
          = w.closing base record (o.first.after later)) ∧
      (commands ≠ [] → ∀ debug text, level = (if debug then .debug else .info) →
        (∀ cap ∈ text, (countOf? cap).isSome = true) → text.bind countOf? = jobs →
          w.execute (runLine debug text quiet record commands) interrupt
            = w.run level commands jobs quiet record interrupt) := by
  obtain ⟨limiter, hlimits, hsmall⟩ := exists_limiter_of_sizes level sized now.inRange
  refine ⟨limiter, hlimits, fun later hcourse => ?_, fun htimed => ?_,
    fun hne debug text hlevel haccepted hjobs => ?_⟩
  · -- a course has a report, and the report decides everything that is left
    obtain ⟨report, ended, hreports⟩ := hcourse.exists_reports now
    exact ⟨report, ended, hreports.leaves hsmall opened jobs⟩
  · obtain ⟨later, hcourse, hanswered⟩ := Order.exists_course htimed
    refine ⟨later, hcourse, ?_⟩
    rw [run_eq hlimits, hanswered]
  · -- the line that spells the order is read back as this order
    unfold execute
    rw [read_runLine haccepted debug hne, hlevel, hjobs]
    rfl

/-- Two of three commands fail: the first exits with a code, and the last cannot be started. -/
def threeChildren : World where
  clock := 0
  shell :=
    [("lint", { delay := 5, report := .exit (some 2) none }), ("build", { delay := 3 }),
      ("ghost", { spawnError := some "spawn ghost ENOENT" })]

theorem leaves_of_course_threeChildren :
    let commands := ["lint", "build", "ghost"]
    let o := threeChildren.order .info commands false true none ⟨.idle 2 Nat.two_pos, .override⟩
    let closed := threeChildren.execute (runLine false (some "2") false true commands) none
    threeChildren.clock.IsReading ∧ threeChildren.history.isOpen = true ∧
      threeChildren.Sizes (some 2) ∧ o.IsTimed ∧
      ∃ later report ended, o.Course later ∧
        o.Leaves (threeChildren.base .info (some 2)) later report ended closed ∧
        closed.2.failed = true ∧ false ∈ o.verdicts later := by
  intro commands o closed
  have hnow : threeChildren.clock.IsReading := ⟨0, by decide, rfl⟩
  have htwo : countOf? "2" = some 2 := by decide +kernel
  have hsized : threeChildren.Sizes (some 2) := ⟨"2", htwo⟩
  -- the three children take five, three and no milliseconds
  have htimed : o.IsTimed := by
    refine ⟨hnow, fun line hmem => ?_, fun _ hnone => absurd hnone (Option.not_mem_none _), ?_⟩
    · simp only [o, commands, World.order, List.mem_cons, List.not_mem_nil, or_false] at hmem
      rcases hmem with rfl | rfl | rfl
      · exact .inl ⟨5, by decide, rfl⟩
      · exact .inl ⟨3, by decide, rfl⟩
      · exact .inl ⟨0, by decide, rfl⟩
    · decide +kernel
  obtain ⟨limiter, hlimits, hleaves, hcourse, hline⟩ :=
    leaves_of_course .info commands false true none hnow rfl hsized
  obtain rfl : ⟨.idle 2 Nat.two_pos, .override⟩ = limiter := by
    have hmade : (threeChildren.limiter .info (some 2)).result
        = .ok ⟨.idle 2 Nat.two_pos, .override⟩ := rfl
    exact Except.ok.inj (hmade.symm.trans hlimits)
  obtain ⟨later, htaken, hrun⟩ := hcourse htimed
  obtain ⟨report, ended, hleft⟩ := hleaves later htaken
  rw [← hrun, ← hline (by decide) false (some "2") rfl (by decide +kernel) htwo] at hleft
  -- the program `ghost` cannot be started
  have hfailed : closed.2.failed = true := by
    have hran := hline (by decide) false (some "2") rfl (by decide +kernel) htwo
    rw [show closed = _ from hran]
    decide +kernel
  exact ⟨hnow, rfl, hsized, htimed, later, report, ended, htaken, hleft, hfailed,
    hleft.failed.mp hfailed⟩

end World

end Cli

end BoundedJobs
