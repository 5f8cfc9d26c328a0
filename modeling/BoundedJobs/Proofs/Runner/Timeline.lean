import BoundedJobs.Proofs.Rounding
import BoundedJobs.Proofs.Runner.Plan

/-!
# Runs as schedules

A run whose tasks take some time each, on a limiter that is idle otherwise, goes through the greedy
schedule of its tasks: `report_of_stints`.

* `Plan.Reached.starts` — granted tasks start, all at the same time. Which slot a task gets does not
  matter, only that there is one;
* `Plan.Reached.fire` — the timer that fires next is that of the task that finishes first. Its slot
  passes on to the first task that waits, so a slot is only free when no task waits;
* `Plan.Reached.concluded` — when all tasks are done, the report is that of the schedule;
* `Plan.Reached.fireWithin` — between two timers all work is done, and each timer is the end of one
  task, so there are as many rounds as tasks.
-/

namespace BoundedJobs

open Crew

namespace Plan

open State Schedule

variable {p : Plan} {s t : State} {begun admitted now place : Nat} {running done : List Nat}

/-- `t` is `s` after the timer of the task at a place has fired and the slot of the task has passed
on: `granted` tasks that waited have got it, which is one unless none waits. -/
structure Elapsed (p : Plan) (s t : State) (begun granted i place : Nat) : Prop where
  staffed : p.Staffed t
  line : ∃ begun admitted, InLine p.capacity 0 t begun admitted
  run : t.runs[p.crew.run]? = (s.runs[p.crew.run]?).map fun run =>
    { run with failures := run.failures ++ (p.failure? place).toList }
  clock : t.clock = p.moment (p.finish place)
  unlagged : t.lags = []
  timers : t.timers = s.timers.eraseIdx i
  waiters : t.slots.waiters
    = List.range' (p.crew.first + begun + granted) (p.stints.length - begun - granted)
  held : t.slots.held + 1 = s.slots.held + granted
  queue : t.queue = (List.range' (p.crew.first + begun) granted).map .start
    ++ if t.isComplete p.crew.run then [.conclude p.crew.run] else []
  phase? : ∀ other stint, other < begun → p.stints[place]? = some stint →
    t.phase? (p.crew.first + other)
      = if other = place then some (.finished (.outcome (stint.outcome place (p.start place))))
        else s.phase? (p.crew.first + other)

/-- The run has its report, and no timer is left. -/
structure Concluded (p : Plan) (s : State) : Prop where
  timers : s.timers = []
  report : ∃ report, p.crew.answer? s = some (.ok report) ∧
    report.tasks = p.stints.mapIdx (fun place stint => stint.outcome place (p.start place)) ∧
    report.durationMs = .ofNat p.makespan ∧
    report.failures = (order p.capacity p.durations).filterMap p.failure?

theorem Concluded.fireWithin (h : p.Concluded s) (isDue : Number → Bool) (stop : State → Bool)
    (fuel : Nat) : p.Concluded (fireWithin isDue stop fuel s) := by
  cases fuel with
  | zero => exact h
  | succ fuel =>
    have hnone : nextTimer? isDue s.timers = none := by
      rw [h.timers]
      rfl
    unfold State.fireWithin
    rw [hnone]
    split <;> exact h

namespace Reached

/-! ### Starts -/

/-- The tick in which a granted task starts: it runs on time, and its timer is made. -/
theorem tick_of_granted (h : p.Reached s begun admitted now running done) {rest : List Work}
    (queue : s.queue = .start (p.crew.first + begun) :: rest) (lt : begun < admitted)
    (start : p.start begun = now) :
    ∃ events, s.tick =
      { s with
        queue := rest
        jobs := s.jobs.modify (p.crew.first + begun) fun j =>
          { j with phase := .running (p.times begun) }
        timers := s.timers ++ [p.timer begun]
        events } := by
  have hle := h.admitted_le
  obtain ⟨stint, hstint⟩ : ∃ stint, p.stints[begun]? = some stint :=
    ⟨_, List.getElem?_eq_getElem (show begun < p.stints.length by omega)⟩
  obtain ⟨job, hj, htask, -, hbody, hsubmitted⟩ := h.staffed.job hstint
  have hgranted : job.phase = .granted := (h.line.marked.granted _ job hj).mpr (by omega)
  have hunheeded : s.isAborted job = true → stint.onAbort = none := by
    unfold isAborted
    rw [htask, Option.bind_some, h.run]
    intro haborted
    exact p.unheeded (of_decide_eq_true haborted) stint (List.mem_of_getElem? hstint)
  obtain ⟨events, heq⟩ := start_of_timed (s := { s with queue := rest })
    (h.dated.congr ⟨rfl, rfl⟩) h.unlagged hj hgranted hbody hunheeded
  refine ⟨events, (tick_of_queue queue).trans (heq.trans ?_)⟩
  -- the times and the timer are those of the plan
  have htimes : ({ waited := s.clock - job.submitted, started := s.clock } : Times)
      = p.times begun := by
    rw [h.clock, hsubmitted, moment_sub h.now_le (Nat.zero_le _)]
    unfold times
    rw [start, Nat.sub_zero]
  have htimer : Timer.mk (s.clock + .ofNat stint.duration)
      (.settle (p.crew.first + begun) stint.ending) = p.timer begun := by
    have hdue : p.opened + now + stint.duration = p.opened + (now + stint.duration : Nat) := by
      omega
    unfold timer moment
    rw [finish_of_stint hstint, ending_of_stint hstint, start, ← hdue, h.clock]
    exact congrArg (Timer.mk · _) ((p.whole h.now_le).add stint.whole)
  change ({ s with
    queue := rest
    jobs := s.jobs.modify (p.crew.first + begun) fun j =>
      { j with phase := .running { waited := s.clock - job.submitted, started := s.clock } }
    timers := s.timers ++
      [Timer.mk (s.clock + .ofNat stint.duration) (.settle (p.crew.first + begun) stint.ending)]
    events } : State) = _
  rw [htimes, htimer]

/-- The work of a run some of whose tasks are about to start. -/
theorem work_of_granted (h : p.Reached s begun admitted now running done) (lt : begun < admitted) :
    p.work begun admitted done
      = .start (p.crew.first + begun) :: p.work (begun + 1) admitted done := by
  have hle := h.admitted_le
  have hlength := h.progress.length_eq
  unfold work
  rw [show admitted - begun = admitted - (begun + 1) + 1 by omega, List.range'_succ, List.map_cons,
    Nat.add_assoc]
  rfl

/-- **A granted task starts.** -/
theorem begin (h : p.Reached s begun admitted now running done)
    (queue : s.queue = p.work begun admitted done) (lt : begun < admitted) :
    p.Reached s.tick (begun + 1) admitted now (running ++ [begun]) done ∧
      s.tick.queue = p.work (begun + 1) admitted done := by
  have hle := h.admitted_le
  have hspare : running.length < p.capacity := by
    have hheld := h.line.held_le
    rw [h.held] at hheld
    omega
  obtain ⟨hstart, hprogress⟩ := h.progress.begin (by rw [length_durations]; omega) hspare
  rw [h.work_of_granted lt] at queue
  obtain ⟨events, htick⟩ := h.tick_of_granted queue lt hstart
  obtain ⟨begun', admitted', hline⟩ := h.line.tick
  have hqueue : s.tick.queue = p.work (begun + 1) admitted done := by rw [htick]
  have hjob : ∃ job, s.jobs[p.crew.first + begun]? = some job :=
    ⟨_, List.getElem?_eq_getElem (show p.crew.first + begun < s.jobs.length by
      rw [h.staffed.length]; omega)⟩
  obtain ⟨job, hj⟩ := hjob
  have hphase : ∀ place, s.tick.phase? (p.crew.first + place)
      = if place = begun then some (.running (p.times begun))
        else s.phase? (p.crew.first + place) := by
    intro place
    rw [phase?_modify hj (by rw [htick])]
    exact if_congr (by omega) rfl rfl
  have hstaffed := h.staffed.congr h.line.ticked.fixed h.line.ticked.unphased
  -- the task moves from those that have a slot to those that are running
  refine ⟨⟨?_, hstaffed, ?_, ?_, ?_, ?_, ?_, ?_, ?_, hprogress⟩, hqueue⟩
  · refine hline.remark (by omega) ?_ ?_ ?_
    · rw [hstaffed.length]
      omega
    · have hslots : s.tick.slots = s.slots := by rw [htick]
      rw [hslots, h.line.waiters, List.length_range', hstaffed.length, h.staffed.length]
    · rw [hqueue]
      unfold work
      rw [filterMap_start?, List.length_range']
      omega
  · rw [htick]
    exact h.run
  · rw [htick]
    exact h.clock
  · rw [htick]
    exact h.unlagged
  · rw [htick, List.length_append, List.length_singleton]
    have hheld := h.held
    change s.slots.held = _
    omega
  · rw [htick, List.map_append, ← h.timers]
    rfl
  · intro place hplace
    rw [hphase]
    rcases List.mem_append.mp hplace with hrunning | hnew
    · have hlt := h.progress.lt_begun (Or.inl hrunning)
      rw [if_neg (by omega)]
      exact h.inTime place hrunning
    · rw [if_pos (List.mem_singleton.mp hnew), List.mem_singleton.mp hnew]
  · intro place hplace stint hstint
    have hlt := h.progress.lt_begun (Or.inr hplace)
    rw [hphase, if_neg (by omega)]
    exact h.ended place hplace stint hstint

/-- **All granted tasks start**, and time does not pass. -/
theorem starts (h : p.Reached s begun admitted now running done)
    (queue : s.queue = p.work begun admitted done) :
    ∃ running', p.Reached (s.after (List.replicate (admitted - begun) .tick)) admitted admitted now
        running' done ∧
      (s.after (List.replicate (admitted - begun) .tick)).queue
        = p.work admitted admitted done := by
  generalize hcount : admitted - begun = count
  induction count generalizing s begun running with
  | zero =>
    have hle := h.admitted_le
    obtain rfl : begun = admitted := by omega
    exact ⟨running, h, queue⟩
  | succ count ih =>
    obtain ⟨hnext, hqueue⟩ := h.begin queue (by omega)
    exact ih hnext hqueue (by omega)

/-! ### The end of a task -/

/-- The jobs of all tasks have given their slots back when all tasks are done. -/
theorem over_crew (h : p.Reached s begun admitted now running done)
    (all : done.length = p.stints.length) : p.crew.Over s := by
  have hlength := h.progress.length_eq
  have hle := h.admitted_le
  obtain rfl : running = [] := List.length_eq_zero_iff.mp (by omega)
  obtain rfl : begun = p.stints.length := by omega
  intro number hmem
  obtain ⟨place, hplace, rfl⟩ := exists_place hmem
  rw [h.staffed.size] at hplace
  have hdone : place ∈ done := h.progress.perm.mem_iff.mpr (List.mem_range.mpr hplace)
  obtain ⟨stint, hstint⟩ := h.exists_stint (Or.inr hdone)
  exact ⟨_, exit?_of_phase? (h.ended place hdone stint hstint)⟩

/-- A task that is not done has not given its slot back. -/
theorem not_over_crew (h : p.Reached s begun admitted now running done)
    (left : done.length < p.stints.length) : ¬ p.crew.Over s := by
  have hlength := h.progress.length_eq
  intro hover
  cases running with
  | cons place running =>
    -- a task is running
    obtain ⟨stint, hstint⟩ := h.exists_stint (Or.inl List.mem_cons_self)
    obtain ⟨result, hexit⟩ := hover _ (h.staffed.mem_jobs hstint)
    rw [exit?_of_phase? (h.inTime place List.mem_cons_self)] at hexit
    exact absurd hexit (by simp [Phase.exit?])
  | nil =>
    -- or the next one has not started
    rw [List.length_nil, Nat.zero_add] at hlength
    have hlt : begun < p.stints.length := by omega
    have hstint := List.getElem?_eq_getElem hlt
    obtain ⟨job, hj, -⟩ := h.staffed.job hstint
    obtain ⟨result, hexit⟩ := hover _ (h.staffed.mem_jobs hstint)
    rw [exit?_of_job hj] at hexit
    have hwaiting := h.line.marked.waiting _ job hj
    have hgranted := h.line.marked.granted _ job hj
    rcases Nat.lt_or_ge begun admitted with hadmitted | hwaits
    · rw [hgranted.mpr (by omega)] at hexit
      exact absurd hexit (by simp [Phase.exit?])
    · rw [hwaiting.mpr (by omega)] at hexit
      exact absurd hexit (by simp [Phase.exit?])

/-- The run is complete when all tasks are done. -/
theorem isComplete_eq (h : p.Reached s begun admitted now running done) :
    s.isComplete p.crew.run = decide (done.length = p.stints.length) := by
  have hlength := h.progress.length_eq
  have hle := h.admitted_le
  by_cases hall : done.length = p.stints.length
  · rw [decide_eq_true hall]
    exact h.staffed.carriesOut.isComplete_of_over (h.over_crew hall) h.unanswered
  · rw [decide_eq_false hall, ← Bool.not_eq_true]
    exact fun hcomplete => h.not_over_crew (by omega)
      (h.staffed.carriesOut.over_of_isComplete hcomplete)

/-- The timer that fires next is that of the task that finishes first. -/
theorem next (h : p.Reached s begun admitted now running done) (busy : running ≠ []) :
    ∃ i place, nextTimer? (fun due => due != .nan) s.timers = some i ∧ running[i]? = some place ∧
      ∀ (j other : Nat), running[j]? = some other →
        p.finish place ≤ p.finish other ∧ (j < i → p.finish place < p.finish other) := by
  have hwhole : ∀ place ∈ running, Number.Whole (p.opened + p.finish place) := by
    intro place hplace
    obtain ⟨stint, hstint⟩ := h.exists_stint (Or.inl hplace)
    exact p.whole (p.finish_le_makespan (List.getElem?_eq_some_iff.mp hstint).1)
  have hdues : s.timers.map (·.due)
      = (running.map fun place => p.opened + p.finish place).map .ofInt := by
    rw [h.timers, List.map_map, List.map_map]
    rfl
  have hdue : ∀ timer ∈ s.timers, (timer.due != .nan) = true := by
    intro timer htimer
    rw [h.timers] at htimer
    obtain ⟨place, hplace, rfl⟩ := List.mem_map.mp htimer
    change (Number.ofInt (p.opened + p.finish place) != .nan) = true
    rw [hwhole place hplace]
    rfl
  have hsome : s.timers ≠ [] := by
    rw [h.timers]
    exact List.map_eq_nil_iff.not.mpr busy
  -- timers stand in the order of the tasks that they belong to
  obtain ⟨i, due, hnext, hdue, hbest⟩ := nextTimer?_eq (fun due => due != .nan) hdues
    (List.forall_mem_map.mpr hwhole) hdue hsome
  rw [List.getElem?_map] at hdue
  obtain ⟨place, hplace, rfl⟩ := Option.map_eq_some_iff.mp hdue
  refine ⟨i, place, hnext, hplace, fun j other hother => ?_⟩
  have hfirst := hbest j (p.opened + p.finish other) (by rw [List.getElem?_map, hother]; rfl)
  exact ⟨by omega, fun hlt => by have := hfirst.2 hlt; omega⟩

/-- What the timer of a running task and two pieces of work bring about: the task is finished at the
time at which it has to be, and its slot has passed on. -/
theorem ticks_of_fire (h : p.Reached s begun admitted now running done) (quiet : s.queue = [])
    {i : Nat} (hi : running[i]? = some place) (hstint : p.stints[place]? = some stint) :
    ∃ events, (s.receive (.fire i)).after (List.replicate 2 .tick) =
      let passed : State :=
        State.passOn
          { s.noteMessage p.crew.run stint.ending.effective with
            clock := p.moment (p.finish place)
            timers := s.timers.eraseIdx i
            jobs := s.jobs.modify (p.crew.first + place) fun j =>
              { j with phase := .finished (.outcome (stint.outcome place (p.start place))) }
            events }
      { passed with
        queue := passed.queue
          ++ if passed.isComplete p.crew.run then [.conclude p.crew.run] else [] } := by
  have hmem : place ∈ running := List.mem_of_getElem? hi
  have hle : p.finish place ≤ p.makespan :=
    p.finish_le_makespan (List.getElem?_eq_some_iff.mp hstint).1
  obtain ⟨job, hj, hphase⟩ := exists_of_phase? (h.inTime place hmem)
  obtain ⟨job', hj', htask, hname, -⟩ := h.staffed.job hstint
  obtain rfl := Option.some.inj (hj.symm.trans hj')
  -- the clock moves on to the time at which the task has to be finished
  have hclock : s.clock.max (p.moment (p.finish place)) = p.moment (p.finish place) := by
    have hdue : now ≤ p.finish place := h.progress.due place hmem
    rw [h.clock]
    exact (p.whole h.now_le).max (p.whole hle) (by omega)
  have htimer : s.timers[i]? = some (p.timer place) := by
    rw [h.timers, List.getElem?_map, hi]
    rfl
  have hfire := fire_of_running htimer hj hphase htask
  rw [hclock, ending_of_stint hstint] at hfire
  have houtcome : ({ s with
      clock := p.moment (p.finish place)
      timers := s.timers.eraseIdx i } : State).outcomeOf job (p.times place) stint.ending.effective
      = stint.outcome place (p.start place) := by
    unfold outcomeOf Stint.outcome
    rw [hname]
    change Outcome.mk _ _ _ _ (p.moment (p.finish place) - p.moment (p.start place)) = _
    rw [moment_sub hle (by rw [finish_of_stint hstint]; omega), finish_of_stint hstint,
      Nat.add_sub_cancel_left]
    rfl
  obtain ⟨events, hticks⟩ := ticks_of_fired
    (s := { s with clock := p.moment (p.finish place), timers := s.timers.eraseIdx i })
    (clocked_of_unlagged h.unlagged (p.inRange hle)) h.unlagged quiet hj htask (p.times place)
    stint.ending.effective
  rw [houtcome] at hticks
  refine ⟨events, ?_⟩
  change (s.fire i).after _ = _
  rw [hfire]
  exact hticks

/-- The timer of a running task fires, and its slot passes on. -/
theorem elapsed (h : p.Reached s begun begun now running done) (quiet : s.queue = []) {i : Nat}
    (hi : running[i]? = some place) :
    p.Elapsed s ((s.receive (.fire i)).after (List.replicate 2 .tick)) begun
      (min (p.stints.length - begun) 1) i place := by
  have hle := h.admitted_le
  have hmem : place ∈ running := List.mem_of_getElem? hi
  have hrunning : 0 < running.length := List.length_pos_of_mem hmem
  obtain ⟨stint, hstint⟩ := h.exists_stint (Or.inl hmem)
  obtain ⟨job, hj, -⟩ := h.staffed.job hstint
  obtain ⟨events, hticks⟩ := h.ticks_of_fire quiet hi hstint
  -- the state in which the slot of the task has not passed on yet
  generalize hbase : ({ s.noteMessage p.crew.run stint.ending.effective with
    clock := p.moment (p.finish place)
    timers := s.timers.eraseIdx i
    jobs := s.jobs.modify (p.crew.first + place) fun j =>
      { j with phase := .finished (.outcome (stint.outcome place (p.start place))) }
    events } : State) = base at hticks
  have hslots : base.slots = s.slots := by rw [← hbase]; rfl
  have hline : base.slots.waiters
      = List.range' (p.crew.first + begun) (p.stints.length - begun) := by
    rw [hslots, h.line.waiters, h.staffed.length, Nat.add_sub_add_left]
  have hslot : 0 < base.slots.held := by
    rw [hslots, h.held]
    omega
  obtain ⟨granted, rfl, hwaiters, hheld, hwork, hothers⟩ := passOn_next hline hslot
  obtain ⟨hunphased, hruns, -, htimers, -⟩ := passOn_keeps base
  obtain ⟨admitted', hreceived⟩ := h.line.receive (.fire i)
  have hafter := hreceived.after (List.replicate 2 .tick)
  rw [hticks] at hafter ⊢
  refine ⟨h.staffed.congr ?_ ?_, hafter, ?_, ?_, ?_, ?_, hwaiters, ?_, ?_, ?_⟩
  · change base.passOn.runs.map Run.fixed = _
    rw [hruns, ← hbase]
    exact noteMessage_fixed s p.crew.run _
  · change base.passOn.jobs.map Job.unphased = _
    rw [hunphased, ← hbase]
    exact place_unphased s _ _
  · change base.passOn.runs[p.crew.run]? = _
    rw [hruns, ← hbase, failure?_of_stint hstint]
    exact List.getElem?_modify_eq _ _ _
  · refine (passOn_time base).clock.trans ?_
    rw [← hbase]
  · refine (passOn_time base).lags.trans ?_
    rw [← hbase]
    exact h.unlagged
  · refine htimers.trans ?_
    rw [← hbase]
  · change base.passOn.slots.held + 1 = _
    rw [hheld, hslots]
  · change base.passOn.queue ++ _ = _
    rw [hwork, ← hbase]
    change s.queue ++ _ ++ _ = _
    rw [quiet, List.nil_append]
    rfl
  · intro other stint' hother hstint'
    obtain rfl := Option.some.inj (hstint.symm.trans hstint')
    change base.passOn.phase? _ = _
    rw [hothers _ (by omega), phase?_modify (s := s) hj (by rw [← hbase])]
    exact if_congr (by omega) rfl rfl

/-- With the end of a task the run has come one task farther. -/
theorem elapse (h : p.Reached s begun begun now running done) {granted i : Nat}
    (hi : running[i]? = some place) (elapsed : p.Elapsed s t begun granted i place)
    (granted_eq : granted = min (p.stints.length - begun) 1)
    (progress : Progress p.capacity p.durations begun (p.finish place) (running.eraseIdx i)
      (done ++ [place])) :
    p.Reached t begun (begun + granted) (p.finish place) (running.eraseIdx i)
      (done ++ [place]) := by
  have hle := h.admitted_le
  obtain ⟨hlt, -⟩ := List.getElem?_eq_some_iff.mp hi
  obtain ⟨stint, hstint⟩ := h.exists_stint (Or.inl (List.mem_of_getElem? hi))
  obtain ⟨begun', admitted', hline⟩ := elapsed.line
  -- the task moves from those that are running to those that are done
  refine ⟨?_, elapsed.staffed, ?_, elapsed.clock, elapsed.unlagged, ?_, ?_, ?_, ?_, progress⟩
  · refine hline.remark (by omega) ?_ ?_ ?_
    · rw [elapsed.staffed.length]
      omega
    · rw [elapsed.staffed.length, elapsed.waiters, List.length_range']
      omega
    · rw [elapsed.queue, filterMap_start?, List.length_range']
      omega
  · rw [elapsed.run, h.run, List.filterMap_append]
    cases hmessage : p.failure? place <;> simp [hmessage]
  · have hheld := elapsed.held
    rw [h.held] at hheld
    rw [List.length_eraseIdx_of_lt hlt]
    omega
  · rw [elapsed.timers, h.timers, List.eraseIdx_map]
  · intro other hother
    have hne := progress.not_mem_done hother
    rw [elapsed.phase? other stint (progress.lt_begun (Or.inl hother)) hstint, if_neg ?_]
    · exact h.inTime other (List.mem_of_mem_eraseIdx hother)
    · rintro rfl
      exact hne (List.mem_append_right _ (List.mem_singleton_self _))
  · intro other hother stint' hstint'
    rw [elapsed.phase? other stint (progress.lt_begun (Or.inr hother)) hstint]
    split
    · next heq =>
      subst heq
      obtain rfl := Option.some.inj (hstint.symm.trans hstint')
      rfl
    · next hne =>
      refine h.ended other ?_ stint' hstint'
      exact (List.mem_append.mp hother).resolve_right fun hnew =>
        hne (List.mem_singleton.mp hnew)

/-- **A task is done**: time moves on to the end of the task that finishes first. -/
theorem fire (h : p.Reached s begun begun now running done)
    (queue : s.queue = p.work begun begun done) (left : done.length < p.stints.length) :
    ∃ i place admitted, nextTimer? (fun due => due != .nan) s.timers = some i ∧
      p.Reached ((s.receive (.fire i)).after (List.replicate 2 .tick)) begun admitted
        (p.finish place) (running.eraseIdx i) (done ++ [place]) ∧
      ((s.receive (.fire i)).after (List.replicate 2 .tick)).queue
        = p.work begun admitted (done ++ [place]) := by
  have hlength := h.progress.length_eq
  have hle := h.admitted_le
  have hpositive := p.positive
  -- a slot is only free when no task waits
  have hfull : begun < p.stints.length → running.length = p.capacity := by
    intro hlt
    have hheld := h.full hlt
    omega
  have hbusy : running ≠ [] := by
    rintro rfl
    rw [List.length_nil] at hlength hfull
    omega
  have quiet : s.queue = [] := by
    unfold work at queue
    rw [queue, Nat.sub_self, if_neg (by omega)]
    rfl
  obtain ⟨i, place, hnext, hi, hfirst⟩ := h.next hbusy
  have hprogress := h.progress.elapse hi hfirst fun hleft =>
    hfull (by rwa [length_durations] at hleft)
  have helapsed := h.elapsed quiet hi
  have hreached := h.elapse hi helapsed rfl hprogress
  refine ⟨i, place, _, hnext, hreached, ?_⟩
  have hqueue := helapsed.queue
  rw [hreached.isComplete_eq] at hqueue
  unfold work
  rw [hqueue, Nat.add_sub_cancel_left]
  exact congrArg _ (if_congr (by simp) rfl rfl)

/-! ### The report -/

/-- A task that is done has the result that the schedule says. -/
theorem result?_of_done (h : p.Reached s begun admitted now running done)
    (all : done.length = p.stints.length) (hstint : p.stints[place]? = some stint) :
    s.result? (p.crew.first + place) = some (.outcome (stint.outcome place (p.start place))) := by
  have hlength := h.progress.length_eq
  have hle := h.admitted_le
  have hlt := (List.getElem?_eq_some_iff.mp hstint).1
  obtain rfl : running = [] := List.length_eq_zero_iff.mp (by omega)
  have hmem : place ∈ done := h.progress.perm.mem_iff.mpr (List.mem_range.mpr (by omega))
  exact result?_eq (exit?_of_phase? (h.ended place hmem stint hstint))

/-- The outcomes in the report of a run all of whose tasks are done. -/
theorem tasks_of_reported (h : p.Reached s begun admitted now running done)
    (all : done.length = p.stints.length) {report : Report}
    (reported : p.crew.Reported s report) :
    report.tasks = p.stints.mapIdx fun place stint => stint.outcome place (p.start place) := by
  refine List.ext_getElem? fun place => ?_
  rw [List.getElem?_mapIdx]
  cases hstint : p.stints[place]? with
  | none =>
    have hge := List.getElem?_eq_none_iff.mp hstint
    exact List.getElem?_eq_none_iff.mpr (by rw [reported.length, h.staffed.size]; exact hge)
  | some stint =>
    have hlt := (List.getElem?_eq_some_iff.mp hstint).1
    obtain ⟨outcome, htold, hfinal⟩ := reported.task place (by rw [h.staffed.size]; exact hlt)
    rw [h.result?_of_done all hstint] at hfinal
    rw [htold, ← Result.outcome.inj (Option.some.inj hfinal)]
    rfl

/-- **When all tasks are done, the report is that of the schedule.** -/
theorem concluded (h : p.Reached s begun admitted now running done)
    (queue : s.queue = p.work begun admitted done) (all : done.length = p.stints.length) :
    p.Concluded s.drain := by
  have hlength := h.progress.length_eq
  have hle := h.admitted_le
  obtain rfl : running = [] := List.length_eq_zero_iff.mp (by omega)
  obtain rfl : admitted = begun := by omega
  obtain hbegun : admitted = p.stints.length := by omega
  have hprogress := h.progress
  rw [hbegun, ← length_durations] at hprogress
  obtain ⟨hdone, hnow⟩ := hprogress.finished
  have hsingle : s.queue = [.conclude p.crew.run] := by
    unfold work at queue
    rw [queue, Nat.sub_self, if_pos all]
    rfl
  -- the one piece of work that is left concludes the run
  let last : State := { s with queue := [] }
  have htick : s.tick = last.conclude p.crew.run := tick_of_queue hsingle
  have hdrain : s.drain = last.conclude p.crew.run := by
    rw [← htick]
    refine h.line.drain_eq (n := 1) ?_
    change s.tick.queue = []
    rw [htick]
    exact (conclude_sameLine last p.crew.run).queue
  have hlook : last.look = last := look_of_unlagged h.unlagged
  have hreported : p.crew.Reported s
      (s.look.reportOf p.crew.run { p.run with failures := done.filterMap p.failure? }) :=
    reported_of_over h.staffed.carriesOut (h.over_crew all) (fun place hplace => by
      rw [h.staffed.size] at hplace
      exact ⟨_, h.result?_of_done all (List.getElem?_eq_getElem hplace)⟩) h.run
  rw [look_of_unlagged h.unlagged] at hreported
  have hlenient : p.run.strict = false := p.lenient
  refine ⟨?_, last.reportOf p.crew.run { p.run with failures := done.filterMap p.failure? },
    ?_, h.tasks_of_reported all hreported, ?_, ?_⟩
  · rw [hdrain, (conclude_keeps last p.crew.run).2.1]
    exact h.timers
  · unfold answer?
    rw [hdrain, conclude_eq (s := last) h.run rfl, hlook]
    change ((s.runs.modify p.crew.run _)[p.crew.run]?).bind _ = _
    rw [List.getElem?_modify_eq, h.run]
    unfold answerOf
    rw [if_neg (by simp [hlenient])]
    rfl
  · change s.clock - p.moment 0 = _
    rw [h.clock, moment_sub h.now_le (Nat.zero_le _), Nat.sub_zero, hnow]
    rfl
  · change done.filterMap p.failure? = _
    rw [hdone]

/-- Work is done until none is left: all granted tasks start, or the run is concluded. -/
theorem drain (h : p.Reached s begun admitted now running done)
    (queue : s.queue = p.work begun admitted done) :
    p.Concluded s.drain ∨ ∃ running', p.Reached s.drain admitted admitted now running' done ∧
      s.drain.queue = p.work admitted admitted done ∧ done.length < p.stints.length := by
  have hlength := h.progress.length_eq
  have hle := h.admitted_le
  -- the last task to finish concludes the run, and any other lets the next one start
  by_cases hall : done.length = p.stints.length
  · exact Or.inl (h.concluded queue hall)
  · obtain ⟨running', hreached, hqueue⟩ := h.starts queue
    have hdrain : s.drain = s.after (List.replicate (admitted - begun) .tick) := by
      refine h.line.drain_eq ?_
      rw [hqueue]
      unfold work
      rw [Nat.sub_self, if_neg hall]
      rfl
    rw [hdrain]
    exact Or.inr ⟨running', hreached, hqueue, by omega⟩

/-- **Timers fire until the run is concluded.** -/
theorem fireWithin {fuel : Nat} (h : p.Reached s begun begun now running done)
    (queue : s.queue = p.work begun begun done) (left : done.length < p.stints.length)
    (enough : p.stints.length - done.length ≤ fuel) :
    p.Concluded (fireWithin (fun due => due != .nan) (fun _ => false) fuel s) := by
  -- every timer that fires is the end of one task
  induction fuel generalizing s begun now running done with
  | zero => omega
  | succ fuel ih =>
    obtain ⟨i, place, admitted, hnext, hreached, hqueue⟩ := h.fire queue left
    obtain ⟨admitted', hline⟩ := h.line.receive (.fire i)
    have hrespond : s.respond (.fire i)
        = ((s.receive (.fire i)).after (List.replicate 2 .tick)).drain := hline.drain_after 2
    unfold State.fireWithin
    rw [if_neg Bool.false_ne_true, hnext]
    change p.Concluded (State.fireWithin _ _ fuel (s.respond (.fire i)))
    rw [hrespond]
    rcases hreached.drain hqueue with hconcluded | ⟨running', hdrained, hwork, hleft⟩
    · exact hconcluded.fireWithin _ _ fuel
    · refine ih hdrained hwork hleft ?_
      rw [List.length_append, List.length_singleton]
      omega

end Reached

/-! ## The run -/

/-- A run that is submitted to an idle limiter is concluded when no timer is left. -/
theorem concluded_of_idle {origin : State} {first last : Nat}
    (line : InLine p.capacity 0 origin first last) (enrolled : origin.Enrolled)
    (quiet : origin.queue = []) (idle : origin.unsettled = []) (timers : origin.timers = [])
    (crew : p.crew = .ofRequest origin p.request) (clock : origin.clock = .ofInt p.opened)
    (unlagged : origin.lags = []) :
    p.Concluded (origin.respond (.settle p.request)).runOut := by
  obtain ⟨admitted, hreached, hqueue⟩ :=
    reached_of_idle line enrolled quiet idle timers crew clock unlagged
  change p.Concluded (State.fireWithin _ _ _ (origin.receive (.settle p.request)).drain)
  rcases hreached.drain hqueue with hconcluded | ⟨running, hdrained, hwork, hleft⟩
  · exact hconcluded.fireWithin _ _ _
  · refine hdrained.fireWithin hwork hleft ?_
    have hlength := hdrained.staffed.length
    change p.stints.length - 0 ≤ (origin.receive (.settle p.request)).drain.alarms
    unfold alarms
    omega

end Plan

open State Schedule

/-- **A run is a greedy schedule.** Tasks that take some whole milliseconds each are run on a
limiter that is idle otherwise, and the clock moves to nothing but the ends of tasks. Then each task
starts on the slot that becomes free first, in the order of the tasks: its outcome says that it
waited until then and ran for as long as it takes. The run takes as long as the schedule, and its
failures are those of the tasks that fail, in the order of the times at which the tasks finish, and
of their places for those that finish together. Times beyond 53 binary digits, for which there is
room between the two ends of the range of dates, are shown as the numbers nearest to them, and all
others as they are. -/
theorem report_of_stints {capacity : Nat} (positive : 0 < capacity) (clock : Number)
    (level : Log.Level) (shell : Shell) (before : List Move) (request : Request)
    (stints : List Stint) (opened : Int) :
    let origin := (fresh positive clock level shell).after before
    let durations := stints.map Stint.duration
    origin.queue = [] → origin.unsettled = [] → origin.timers = [] → origin.clock = .ofInt opened →
    origin.lags = [] → -(Timestamp.bound : Int) ≤ opened →
    opened + makespan capacity durations ≤ Timestamp.bound →
    request.tasks = stints.map Stint.task → request.strict = false →
    (request.signal = .aborted → ∀ stint ∈ stints, stint.onAbort = none) →
    ∃ report, (ofRequest origin request).answer? (origin.respond (.settle request)).runOut
        = some (.ok report) ∧
      report.tasks
        = stints.mapIdx (fun place stint => stint.outcome place (start capacity durations place)) ∧
      report.durationMs = .ofNat (makespan capacity durations) ∧
      report.failures
        = (order capacity durations).filterMap (fun place => stints[place]?.bind Stint.failure?) ∧
      (∀ place outcome, report.tasks[place]? = some outcome →
        outcome.durationMs = .finite ((durations[place]?).getD 0) ∧
        (start capacity durations place ≤ Number.exactBound →
          outcome.waitedMs = .finite (start capacity durations place))) ∧
      (makespan capacity durations ≤ Number.exactBound →
        report.durationMs = .finite (makespan capacity durations)) := by
  intro origin durations quiet idle timers clock_eq unlagged lower upper tasks lenient unheeded
  obtain ⟨begun, admitted, hline⟩ := inLine_after positive clock level shell before
  have henrolled := enrolled_after positive clock level shell before
  let plan : Plan :=
    { capacity, positive, crew := ofRequest origin request, request, stints, tasks, lenient,
      unheeded, opened, lower, upper }
  obtain ⟨report, hanswer, htasks, hduration, hfailures⟩ := (Plan.concluded_of_idle (p := plan)
    hline henrolled quiet idle timers rfl clock_eq unlagged).report
  refine ⟨report, hanswer, htasks, hduration, hfailures, fun place outcome hget => ?_,
    fun hexact => ?_⟩
  · -- the outcome at the place is that of the task at the place
    rw [htasks, List.getElem?_mapIdx] at hget
    obtain ⟨stint, hstint, rfl⟩ := Option.map_eq_some_iff.mp hget
    have hdurations : durations[place]? = some stint.duration := by
      rw [List.getElem?_map, hstint]
      rfl
    rw [hdurations]
    exact ⟨stint.whole, Number.ofNat_of_le⟩
  · rw [hduration]
    exact Number.ofNat_of_le hexact

/-- Three tasks that share two slots. The third gets the slot of the second, which fails, and ends
together with the first. -/
def sharedSlots : List Stint :=
  [{ duration := 5, whole := .of_le (by decide), ending := .thrown (.text "a") },
   { name := some "b", duration := 2, whole := .of_le (by decide), ending := .thrown (.text "b") },
   { duration := 3, whole := .of_le (by decide), ending := .thrown (.text "c") }]

theorem report_of_stints_sharedSlots :
    let origin := (fresh Nat.two_pos 0 .info []).after []
    let request : Request := { label := "run", tasks := sharedSlots.map Stint.task }
    ∃ report, (ofRequest origin request).answer? (origin.respond (.settle request)).runOut
        = some (.ok report) ∧
      report.tasks.map (·.waitedMs) = [0, 0, 2] ∧ report.durationMs = 5 ∧
      report.failures = ["b", "a", "c"] := by
  intro origin request
  obtain ⟨report, hanswer, htasks, hduration, hfailures, -, -⟩ :=
    report_of_stints Nat.two_pos 0 .info [] [] request sharedSlots 0 rfl rfl rfl rfl rfl
      (by decide) (by decide) rfl rfl (fun haborted => absurd haborted (by decide))
  refine ⟨report, hanswer, ?_, ?_, ?_⟩
  · rw [htasks]
    rfl
  · rw [hduration]
    rfl
  · have horder : order 2 (sharedSlots.map Stint.duration) = [1, 0, 2] :=
      (eq_order (by decide) (by decide)).symm
    rw [hfailures, horder]
    rfl

/-- Four tasks that take more than 53 binary digits of milliseconds on two slots. -/
def longStints : List Stint :=
  [{ duration := 9007199254740992, whole := .of_le (by decide), ending := .returned .absent },
   { duration := 9007199254740992, whole := .of_le (by decide), ending := .returned .absent },
   { duration := 1, whole := .of_le (by decide), ending := .returned .absent },
   { duration := 1, whole := .of_le (by decide), ending := .returned .absent }]

/-- In a run that begins with the first date the last two tasks finish one millisecond later than
the report says. -/
theorem report_of_longStints :
    let opened : Int := -Timestamp.bound
    let origin := (fresh Nat.two_pos (.ofInt opened) .info []).after []
    let request : Request := { label := "run", tasks := longStints.map Stint.task }
    let durations := longStints.map Stint.duration
    opened + makespan 2 durations ≤ Timestamp.bound ∧
      ∃ report, (ofRequest origin request).answer? (origin.respond (.settle request)).runOut
          = some (.ok report) ∧
        finish 2 durations 3 = 9007199254740993 ∧ makespan 2 durations = 9007199254740993 ∧
        report.durationMs = .finite (9007199254740992 : Nat) := by
  intro opened origin request durations
  -- the difference of the two readings has 54 digits and is rounded down
  have hshown : (((ofRequest origin request).answer?
      (origin.respond (.settle request)).runOut).bind (·.toOption)).map (·.durationMs)
      = some (.finite (9007199254740992 : Nat)) := by
    decide +kernel
  obtain ⟨report, hreport, hduration⟩ := Option.map_eq_some_iff.mp hshown
  exact ⟨by decide +kernel, report, eq_ok_of_toOption hreport, by decide +kernel,
    by decide +kernel, hduration⟩

end BoundedJobs
