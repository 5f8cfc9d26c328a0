import BoundedJobs.Proofs.Runner.Conclusion
import BoundedJobs.Proofs.Runner.Timers
import BoundedJobs.Proofs.Schedule

/-!
# Plans

A plan is a run whose tasks take some time each, submitted to a limiter that is idle. While the run
goes on, all that the state of the runner holds of it can be told from the schedule of its tasks.

* `Stint`, `Plan` — such a task, and such a run, with the times of its schedule;
* `Plan.Staffed` — the jobs of the run are those of the tasks, and they are the last ones;
* `Plan.Reached` — what holds between two pieces of work: which tasks are running and done, and what
  the state owes to them. The schedule up to that time is a `Schedule.Progress`, and its time is
  what the clock shows;
* `Plan.reached_of_idle` — where a run begins.
-/

namespace BoundedJobs

open Crew

/-! ## Phases -/

namespace State

variable {s t : State} {number place count : Nat} {job : Job} {phase : Phase}

/-- The marks can be told from the waiters and from the starts in the queue. -/
theorem InLine.remark {capacity spare begun admitted begun' admitted' : Nat}
    (h : InLine capacity spare s begun admitted) (begun_le : begun' ≤ admitted')
    (admitted_le : admitted' ≤ s.jobs.length)
    (waiters : s.slots.waiters.length = s.jobs.length - admitted')
    (starts : (s.queue.filterMap Work.start?).length = admitted' - begun') :
    InLine capacity spare s begun' admitted' := by
  rw [h.waiters, List.length_range'] at waiters
  rw [h.starts, List.length_range'] at starts
  have hbegun := h.marked.begun_le
  have hadmitted := h.marked.admitted_le
  obtain rfl : admitted = admitted' := by omega
  obtain rfl : begun = begun' := by omega
  exact h

/-- A slot passes on to the first of those that wait, or becomes free. -/
theorem passOn_next {first : Nat} (waiters : s.slots.waiters = List.range' first count)
    (held : 0 < s.slots.held) :
    ∃ granted, granted = min count 1 ∧
      s.passOn.slots.waiters = List.range' (first + granted) (count - granted) ∧
      s.passOn.slots.held + 1 = s.slots.held + granted ∧
      s.passOn.queue = s.queue ++ (List.range' first granted).map .start ∧
      ∀ i, i ≠ first → s.passOn.phase? i = s.phase? i := by
  cases count with
  | zero =>
    refine ⟨0, rfl, ?_⟩
    rw [passOn_of_idle waiters]
    exact ⟨waiters, Nat.succ_pred_eq_of_pos held, (List.append_nil _).symm, fun _ _ => rfl⟩
  | succ count =>
    refine ⟨1, by omega, ?_⟩
    rw [passOn_of_waiting (waiters.trans List.range'_succ)]
    refine ⟨rfl, rfl, rfl, fun i hne => ?_⟩
    change ((s.jobs.modify first _)[i]?).map _ = _
    rw [List.getElem?_modify_ne _ _ (Ne.symm hne)]
    rfl

/-! ## Submissions -/

/-- On an idle limiter no job holds a slot, and none waits or is about to start. -/
theorem InLine.free_of_idle {capacity first last : Nat} (line : InLine capacity 0 s first last)
    (quiet : s.queue = []) (idle : s.unsettled = []) :
    s.slots.held = 0 ∧ s.slots.waiters = [] ∧ first = s.jobs.length := by
  have hunsettled := line.unsettled_of_quiet quiet
  rw [idle] at hunsettled
  obtain ⟨hbodies, hwaiters⟩ := List.append_eq_nil_iff.mp hunsettled.symm
  have hheld := line.held_of_quiet quiet
  rw [hbodies, List.length_nil] at hheld
  refine ⟨hheld, hwaiters, ?_⟩
  have hmarks := congrArg List.length line.waiters
  have hstarts := congrArg List.length line.starts
  rw [hwaiters, List.length_range', List.length_nil] at hmarks
  rw [quiet, List.length_range', List.filterMap_nil, List.length_nil] at hstarts
  have hlast := line.marked.admitted_le
  have hfirst := line.marked.begun_le
  omega

/-- What a submission leaves alone, and the slots and the work that it brings. -/
structure Queued (s t : State) (count : Nat) : Prop where
  timers : t.timers = s.timers
  time : SameTime s t
  /-- Every job has a slot or waits for one. -/
  claims : t.slots.held + t.slots.waiters.length = s.slots.held + s.slots.waiters.length + count
  works : ∃ numbers : List Nat, t.queue = s.queue ++ numbers.map .start

theorem submitJob_queued (s : State) (job : Job) : Queued s (s.submitJob job) 1 := by
  cases hopen : s.slots.isOpen with
  | true =>
    rw [submitJob_of_open hopen]
    refine ⟨rfl, ⟨rfl, rfl⟩, ?_, ⟨[s.jobs.length], rfl⟩⟩
    change s.slots.held + 1 + s.slots.waiters.length = _
    omega
  | false =>
    rw [submitJob_of_closed hopen]
    refine ⟨rfl, ⟨rfl, rfl⟩, ?_, ⟨[], (List.append_nil _).symm⟩⟩
    change s.slots.held + (s.slots.waiters ++ [s.jobs.length]).length = _
    rw [List.length_append, List.length_singleton, Nat.add_assoc]

theorem foldl_submitJob_queued (jobs : List Job) (s : State) :
    Queued s (jobs.foldl submitJob s) jobs.length := by
  induction jobs generalizing s with
  | nil => exact ⟨rfl, .refl s, rfl, ⟨[], (List.append_nil _).symm⟩⟩
  | cons job jobs ih =>
    have hfirst := submitJob_queued s job
    have hrest := ih (s.submitJob job)
    obtain ⟨first, hq⟩ := hfirst.works
    obtain ⟨rest, hq'⟩ := hrest.works
    refine ⟨hrest.timers.trans hfirst.timers, hfirst.time.trans hrest.time, ?_, ?_⟩
    · rw [List.foldl_cons, hrest.claims, hfirst.claims, List.length_cons]
      omega
    · refine ⟨first ++ rest, ?_⟩
      rw [List.foldl_cons, hq', hq, List.map_append, List.append_assoc]

/-- A run that is submitted puts the starts of its jobs into the queue, or its conclusion if it has
no tasks. It looks at the clock once for itself and once for each task. -/
theorem submit_queued (s : State) (request : Request) :
    (s.submit request).timers = s.timers ∧
      SameTime (s.looks (request.tasks.length + 1)) (s.submit request) ∧
      (s.submit request).slots.held + (s.submit request).slots.waiters.length
        = s.slots.held + s.slots.waiters.length + request.tasks.length ∧
      ∃ numbers : List Nat, (s.submit request).queue = s.queue ++ (numbers.map .start
        ++ if 0 = request.tasks.length then [.conclude s.runs.length] else []) := by
  have hlength := length_newcomers s request
  have htimers : (s.opened request).timers = s.timers := by rw [opened_eq]
  have hslots : (s.opened request).slots = s.slots := by rw [opened_eq]
  have hqueue : (s.opened request).queue = s.queue := by rw [opened_eq]
  have htime : SameTime (s.looks (request.tasks.length + 1)) (s.opened request) := ⟨rfl, rfl⟩
  rw [submit_eq]
  split
  · -- a run without tasks has nothing to start and is concluded at once
    next hempty =>
    rw [List.isEmpty_iff.mp hempty, List.length_nil] at hlength
    refine ⟨htimers, ⟨htime.clock, htime.lags⟩, ?_, [], ?_⟩
    · rw [← hlength]
      exact congrArg (fun slots => slots.held + slots.waiters.length) hslots
    · rw [if_pos hlength]
      exact congrArg (· ++ _) hqueue
  · next hjobs =>
    -- each of the other jobs claims a slot or a place in the line
    have hqueued := foldl_submitJob_queued (s.newcomers (.settle request)) (s.opened request)
    obtain ⟨numbers, hworks⟩ := hqueued.works
    refine ⟨hqueued.timers.trans htimers, htime.trans hqueued.time, ?_, numbers, ?_⟩
    · rw [hqueued.claims, hlength, hslots]
    · rw [hworks, hqueue, if_neg, List.append_nil]
      intro hzero
      rw [← hzero] at hlength
      exact hjobs (List.isEmpty_iff.mpr (List.length_eq_zero_iff.mp hlength))

end State

/-! ## Plans -/

/-- A task that takes some milliseconds and then ends by itself. -/
structure Stint where
  name : Option String := none
  duration : Nat
  /-- The duration is a number, and not only near one. -/
  whole : Number.Whole duration
  ending : Ending
  /-- How the task would end if its run was aborted before. -/
  onAbort : Option Ending := none

namespace Stint

variable {stint : Stint}

def task (stint : Stint) : Task :=
  { name := stint.name, body := .timed (.ofNat stint.duration) stint.ending stint.onAbort }

/-- The message of a task that fails. -/
def failure? (stint : Stint) : Option String := stint.ending.effective.failure?

/-- The outcome of the task that stands at a place and starts at a time. -/
def outcome (stint : Stint) (place start : Nat) : Outcome :=
  { name := stint.task.title place, status := if stint.failure?.isSome then .failed else .ok,
    error := stint.failure?, waitedMs := .ofNat start, durationMs := .ofNat stint.duration }

end Stint

/-- A run of tasks that take some time each. The clock counts whole milliseconds, and shows a date
until the end of the schedule. -/
structure Plan where
  capacity : Nat
  positive : 0 < capacity
  crew : Crew
  request : Request
  stints : List Stint
  tasks : request.tasks = stints.map Stint.task
  lenient : request.strict = false
  /-- No task ends early because the run had been aborted when it started. -/
  unheeded : request.signal = .aborted → ∀ stint ∈ stints, stint.onAbort = none
  /-- The time at which the run is submitted. -/
  opened : Int
  lower : -(Timestamp.bound : Int) ≤ opened
  upper : opened + Schedule.makespan capacity (stints.map Stint.duration) ≤ Timestamp.bound

namespace Plan

open State Schedule

variable {p : Plan} {s t : State} {begun admitted now place number : Nat} {running done : List Nat}
  {stint : Stint}

def durations (p : Plan) : List Nat := p.stints.map Stint.duration

/-- When the task at a place starts, counted from the submission of the run. -/
def start (p : Plan) (place : Nat) : Nat := Schedule.start p.capacity p.durations place

def finish (p : Plan) (place : Nat) : Nat := Schedule.finish p.capacity p.durations place

def makespan (p : Plan) : Nat := Schedule.makespan p.capacity p.durations

/-- What the clock shows some milliseconds after the submission. -/
def moment (p : Plan) (time : Nat) : Number := .ofInt (p.opened + time)

def times (p : Plan) (place : Nat) : Times :=
  { waited := .ofNat (p.start place), started := p.moment (p.start place) }

def failure? (p : Plan) (place : Nat) : Option String := (p.stints[place]?).bind Stint.failure?

/-- How the task at a place ends. -/
def ending (p : Plan) (place : Nat) : Ending :=
  ((p.stints[place]?).map Stint.ending).getD (.returned .absent)

/-- The timer of a task that is running. -/
def timer (p : Plan) (place : Nat) : Timer :=
  { due := p.moment (p.finish place), alarm := .settle (p.crew.first + place) (p.ending place) }

/-- The run as it is submitted. -/
def run (p : Plan) : Run :=
  { label := p.request.label, strict := p.request.strict, hooks := p.request.hooks,
    signal := p.request.signal, startedAt := p.moment 0 }

/-- The work in the queue: the starts of the tasks that have got a slot, and the conclusion when all
tasks are done. -/
def work (p : Plan) (begun admitted : Nat) (done : List Nat) : List Work :=
  (List.range' (p.crew.first + begun) (admitted - begun)).map .start
    ++ if done.length = p.stints.length then [.conclude p.crew.run] else []

/-- The conclusion of a run is no start. -/
theorem filterMap_start? (numbers : List Nat) (run : Nat) (c : Prop) [Decidable c] :
    (numbers.map Work.start ++ if c then [Work.conclude run] else []).filterMap Work.start?
      = numbers := by
  have hnone : (if c then [Work.conclude run] else []).filterMap Work.start? = [] := by
    split <;> rfl
  rw [List.filterMap_append, hnone, List.append_nil, List.filterMap_map]
  exact List.filterMap_some

theorem length_durations (p : Plan) : p.durations.length = p.stints.length := List.length_map _

theorem getElem?_durations (h : p.stints[place]? = some stint) :
    p.durations[place]? = some stint.duration := by
  unfold durations
  rw [List.getElem?_map, h]
  rfl

theorem finish_of_stint (h : p.stints[place]? = some stint) :
    p.finish place = p.start place + stint.duration := by
  unfold finish start Schedule.finish
  rw [getElem?_durations h]
  rfl

theorem ending_of_stint (h : p.stints[place]? = some stint) : p.ending place = stint.ending := by
  unfold ending
  rw [h]
  rfl

theorem failure?_of_stint (h : p.stints[place]? = some stint) :
    p.failure? place = stint.failure? := by
  unfold failure?
  rw [h]
  rfl

theorem finish_le_makespan (lt : place < p.stints.length) : p.finish place ≤ p.makespan :=
  Schedule.finish_le_makespan (by rwa [length_durations])

/-! ## The clock of a plan -/

theorem whole (le : now ≤ p.makespan) : Number.Whole (p.opened + now) := by
  have hbound : Timestamp.bound ≤ Number.exactBound := by decide
  have hlower := p.lower
  have hupper := p.upper
  change p.opened + p.makespan ≤ Timestamp.bound at hupper
  exact Number.Whole.of_le (by omega)

theorem inRange (le : now ≤ p.makespan) : Timestamp.InRange (p.moment now) := by
  have hbound : Timestamp.bound ≤ Number.exactBound := by decide
  have hlower := p.lower
  have hupper := p.upper
  change p.opened + p.makespan ≤ Timestamp.bound at hupper
  have hleft : Number.Whole (-(Timestamp.bound : Int)) := Number.Whole.of_le (by omega)
  have hright : Number.Whole (Timestamp.bound : Int) := Number.Whole.of_le (by omega)
  exact ⟨hleft.le (p.whole le) (by omega), (p.whole le).le hright (by omega)⟩

/-- The time between two moments. -/
theorem moment_sub (later : now ≤ p.makespan) (le : number ≤ now) :
    p.moment now - p.moment number = .ofNat (now - number) := by
  unfold moment
  rw [(p.whole later).sub (p.whole (Nat.le_trans le later))]
  exact congrArg Number.ofInt (by omega)

/-! ## What the state owes to a plan -/

/-- The jobs of a plan are those of its tasks, and they are the last ones. -/
structure Staffed (p : Plan) (s : State) : Prop where
  carriesOut : p.crew.CarriesOut p.request s
  length : s.jobs.length = p.crew.first + p.stints.length
  submitted : ∀ number ∈ p.crew.jobs, ∀ job, s.jobs[number]? = some job → job.submitted = p.moment 0

theorem Staffed.congr (h : p.Staffed s) (fixed : t.runs.map Run.fixed = s.runs.map Run.fixed)
    (unphased : t.jobs.map Job.unphased = s.jobs.map Job.unphased) : p.Staffed t where
  carriesOut := h.carriesOut.congr (fixed.trans (List.append_nil _).symm)
    (unphased.trans (List.append_nil _).symm) fun _ hmem => absurd hmem List.not_mem_nil
  length := by
    have hlength := congrArg List.length unphased
    rw [List.length_map, List.length_map] at hlength
    exact hlength.trans h.length
  submitted := by
    intro number hmem job hj
    rcases exists_job_before (unphased.trans (List.append_nil _).symm) hj with
      ⟨job', hj', hsame⟩ | ⟨-, hnew⟩
    · exact (congrArg Job.submitted hsame).symm.trans (h.submitted number hmem job' hj')
    · exact absurd (List.mem_of_getElem? hnew) List.not_mem_nil

theorem Staffed.size (h : p.Staffed s) : p.crew.size = p.stints.length := by
  rw [h.carriesOut.size, p.tasks, List.length_map]

theorem Staffed.mem_jobs (h : p.Staffed s) (hstint : p.stints[place]? = some stint) :
    p.crew.first + place ∈ p.crew.jobs := by
  have hlt := (List.getElem?_eq_some_iff.mp hstint).1
  have hsize := h.size
  exact Crew.mem_jobs.mpr ⟨by omega, by omega⟩

/-- The job of a task. -/
theorem Staffed.job (h : p.Staffed s) (hstint : p.stints[place]? = some stint) :
    ∃ job, s.jobs[p.crew.first + place]? = some job ∧ job.run? = some p.crew.run ∧
      job.name = stint.task.title place ∧ job.body = stint.task.body ∧
      job.submitted = p.moment 0 := by
  have hmem := h.mem_jobs hstint
  have htask : p.request.tasks[place]? = some stint.task := by
    rw [p.tasks, List.getElem?_map, hstint]
    rfl
  obtain ⟨job, hj, hname, hbody⟩ := h.carriesOut.task place stint.task htask
  exact ⟨job, hj, (h.carriesOut.mem_iff _ job hj).mpr hmem, hname, hbody,
    h.submitted _ hmem job hj⟩

/-- The run has come so far: `begun` tasks have started, `admitted` tasks have got a slot, and the
clock shows `now`. -/
structure Reached (p : Plan) (s : State) (begun admitted now : Nat) (running done : List Nat) :
    Prop where
  line : InLine p.capacity 0 s (p.crew.first + begun) (p.crew.first + admitted)
  staffed : p.Staffed s
  run : s.runs[p.crew.run]? = some { p.run with failures := done.filterMap p.failure? }
  clock : s.clock = p.moment now
  /-- No time passes but up to the next timer. -/
  unlagged : s.lags = []
  held : s.slots.held = running.length + (admitted - begun)
  timers : s.timers = running.map p.timer
  /-- The tasks that are running started when they had to. -/
  inTime : ∀ place ∈ running, s.phase? (p.crew.first + place) = some (.running (p.times place))
  /-- The tasks that are done have come to the outcomes that they had to come to. -/
  ended : ∀ place ∈ done, ∀ stint, p.stints[place]? = some stint →
    s.phase? (p.crew.first + place)
      = some (.finished (.outcome (stint.outcome place (p.start place))))
  progress : Progress p.capacity p.durations begun now running done

namespace Reached

theorem admitted_le (h : p.Reached s begun admitted now running done) :
    begun ≤ admitted ∧ admitted ≤ p.stints.length := by
  have hbegun := h.line.marked.begun_le
  have hadmitted := h.line.marked.admitted_le
  rw [h.staffed.length] at hadmitted
  omega

theorem now_le (h : p.Reached s begun admitted now running done) : now ≤ p.makespan := by
  refine h.progress.now_le ?_
  have hle := h.admitted_le
  rw [length_durations]
  omega

theorem dated (h : p.Reached s begun admitted now running done) : s.Dated :=
  clocked_of_unlagged h.unlagged (h.clock ▸ inRange h.now_le)

theorem exists_stint (h : p.Reached s begun admitted now running done)
    (mem : place ∈ running ∨ place ∈ done) : ∃ stint, p.stints[place]? = some stint := by
  have hlt := h.progress.lt_begun mem
  have hle := h.admitted_le
  exact ⟨_, List.getElem?_eq_getElem (show place < p.stints.length by omega)⟩

theorem unanswered (h : p.Reached s begun admitted now running done) :
    p.crew.answer? s = none := by
  unfold answer?
  rw [h.run]
  rfl

/-- All slots are in use while a task waits. -/
theorem full (h : p.Reached s begun admitted now running done) (lt : admitted < p.stints.length) :
    running.length + (admitted - begun) = p.capacity := by
  have hlength := h.staffed.length
  refine h.held.symm.trans (h.line.busy ?_)
  rw [h.line.waiters, ← List.length_pos_iff, List.length_range']
  omega

end Reached

/-! ## The beginning -/

/-- The jobs of a plan that is submitted line up behind all others. -/
theorem staffed_of_receive {origin : State} (enrolled : origin.Enrolled)
    (crew : p.crew = .ofRequest origin p.request) (clock : origin.clock = p.moment 0)
    (unlagged : origin.lags = []) : p.Staffed (origin.receive (.settle p.request)) := by
  have hplace : p.crew.first = origin.jobs.length := by rw [crew]; rfl
  have hunphased := receive_unphased origin (.settle p.request)
  refine ⟨?_, ?_, fun number hmem job hj => ?_⟩
  · rw [crew]
    exact carriesOut_receive enrolled p.request
  · have hlength := congrArg List.length hunphased
    rw [List.length_append, List.length_map, List.length_map, length_newcomers, p.tasks,
      List.length_map] at hlength
    rw [hlength, hplace]
  · have hle := (Crew.mem_jobs.mp hmem).1
    rcases exists_job_before hunphased hj with ⟨job', hj', -⟩ | ⟨-, hnew⟩
    · have hlt := (List.getElem?_eq_some_iff.mp hj').1
      omega
    · obtain ⟨⟨task, place⟩, -, hsame⟩ := List.mem_map.mp (List.mem_of_getElem? hnew)
      have hsubmitted : (origin.nextJob p.request task place).submitted = p.moment 0 := by
        change (origin.looks (place + 2)).clock = _
        rw [looks_of_unlagged unlagged, clock]
      exact (congrArg Job.submitted hsame).symm.trans hsubmitted

/-- A run that is submitted to an idle limiter is at the beginning of its schedule. -/
theorem reached_of_idle {origin : State} {first last : Nat}
    (line : InLine p.capacity 0 origin first last) (enrolled : origin.Enrolled)
    (quiet : origin.queue = []) (idle : origin.unsettled = []) (timers : origin.timers = [])
    (crew : p.crew = .ofRequest origin p.request) (clock : origin.clock = .ofInt p.opened)
    (unlagged : origin.lags = []) :
    ∃ admitted, p.Reached (origin.receive (.settle p.request)) 0 admitted 0 [] [] ∧
      (origin.receive (.settle p.request)).queue = p.work 0 admitted [] := by
  have hsize : p.request.tasks.length = p.stints.length := by rw [p.tasks, List.length_map]
  have hmoment : origin.clock = p.moment 0 := by
    rw [clock]
    exact congrArg Number.ofInt (Int.add_zero _).symm
  obtain ⟨hheld, hwaiters, rfl⟩ := line.free_of_idle quiet idle
  obtain ⟨admitted, hline⟩ := line.receive (.settle p.request)
  obtain ⟨htimers, htime, hclaims, numbers, hqueue⟩ := submit_queued origin p.request
  rw [looks_of_unlagged unlagged] at htime
  have hnumber : p.crew.run = origin.runs.length := by rw [crew]; rfl
  have hplace : p.crew.first = origin.jobs.length := by rw [crew]; rfl
  have hstaffed := staffed_of_receive enrolled crew hmoment unlagged
  have hadmitted := hline.marked.begun_le
  have hlength := hline.marked.admitted_le
  have hbehind := congrArg List.length hline.waiters
  rw [hstaffed.length, hplace] at hlength hbehind
  rw [List.length_range'] at hbehind
  refine ⟨admitted - origin.jobs.length, ⟨?_, hstaffed, ?_, htime.clock.trans hmoment,
    htime.lags.trans unlagged, ?_, htimers.trans timers, ?_, ?_, Progress.zero _ _⟩, ?_⟩
  · rw [hplace, Nat.add_zero, Nat.add_sub_cancel' hadmitted]
    exact hline
  · change (origin.submit p.request).runs[p.crew.run]? = _
    rw [submit_runs, hnumber, List.getElem?_concat_length]
    unfold runFor Plan.run
    rw [look_of_unlagged unlagged, hmoment]
    rfl
  · change (origin.submit p.request).slots.held = _
    change (origin.submit p.request).slots.waiters.length = _ at hbehind
    rw [hheld, hwaiters, List.length_nil, hsize] at hclaims
    rw [List.length_nil]
    omega
  · exact fun _ hmem => absurd hmem List.not_mem_nil
  · exact fun _ hmem => absurd hmem List.not_mem_nil
  · -- the starts in the queue are those that the line says
    have hnumbers := hline.starts
    change (origin.submit p.request).queue.filterMap Work.start? = _ at hnumbers
    rw [hqueue, quiet, List.nil_append, filterMap_start?] at hnumbers
    change (origin.submit p.request).queue = _
    unfold work
    rw [hqueue, quiet, hnumbers, hsize, hplace, hnumber]
    rfl

end Plan

end BoundedJobs
