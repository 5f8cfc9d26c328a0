import BoundedJobs.Runner.Step

/-!
# What reaches a runner from outside

Runs and calls are submitted, bodies are told to end, runs are aborted, timers fire, and time
passes. Each of these is one `Stimulus`, and each leaves work in the queue that is then done.

* `Stimulus.settle`, `Stimulus.call` — submissions: every job takes a free slot at once or waits
  behind all others;
* `Stimulus.finish`, `Stimulus.abort`, `Stimulus.report` — ends from outside; only the first end of
  a body counts. A child that answers a signal while it is still being sent is one whose report
  arrives before anything else;
* `State.receive` — a stimulus without the work that follows it; `State.respond` — with that work;
* `State.advance` — the clock moves on: every timer that is due by then fires at its own time, in
  the order of due times and then of making, and everything settles before the next one.
-/

namespace BoundedJobs

/-- What a caller asks for when it submits a run. -/
structure Request where
  label : String
  tasks : List Task
  strict : Bool := false
  hooks : Hooks := {}
  signal : Signal := .none

/-- What can reach a runner from outside. -/
inductive Stimulus where
  | settle (request : Request)
  /-- A direct call, whose body may be relayed by an asynchronous function of the caller. -/
  | call (label : String) (body : Body) (relayed : Bool)
  /-- A body that waits to be told ends. -/
  | finish (job : Nat) (ending : Ending)
  | abort (run : Nat)
  /-- The child of a job reports. -/
  | report (job : Nat) (report : ChildReport)
  | setLevel (level : Log.Level)
  | setClock (clock : Number)
  /-- What is done next takes some time: so much before each of the next looks at the clock. -/
  | setLags (lags : List Number)
  /-- The timer at a place among the timers fires. -/
  | fire (place : Nat)

namespace State

/-! ## Submissions -/

/-- A job asks for a slot. It is granted a free one at once, and waits otherwise. -/
def submitJob (s : State) (job : Job) : State :=
  let number := s.jobs.length
  match s.slots.acquire number with
  -- the slot is taken now, but the job starts with the work that follows
  | (slots, true) =>
    { s with slots, jobs := s.jobs ++ [{ job with phase := .granted }] }.enqueue (.start number)
  | (slots, false) => { s with slots, jobs := s.jobs ++ [{ job with phase := .waiting }] }

/-- The job of a task. -/
def jobOf (s : State) (request : Request) (run : Nat) (task : Task) (place : Nat) : Job :=
  { owner := .run run, label := request.label, place, name := task.title place, body := task.body,
    submitted := s.clock, phase := .waiting }

/-- The task at a place of a run is submitted. -/
def submitTask (request : Request) (run : Nat) (s : State) (entry : Task × Nat) : State :=
  let s := s.look
  s.submitJob (s.jobOf request run entry.1 entry.2)

/-- A run is submitted, with all its tasks in their order. A run without tasks is concluded
without ever asking for a slot. -/
def submit (s : State) (request : Request) : State :=
  let number := s.runs.length
  let s := s.look
  let run : Run :=
    { label := request.label, strict := request.strict, hooks := request.hooks,
      signal := request.signal, startedAt := s.clock }
  let opened := { s with runs := s.runs ++ [run] }
  -- there is no job whose end could put the conclusion in the queue
  if request.tasks.isEmpty then opened.enqueue (.conclude number)
  else request.tasks.zipIdx.foldl (submitTask request number) opened

/-- A direct call is submitted. -/
def submitCall (s : State) (label : String) (body : Body) (relayed : Bool) : State :=
  let s := s.look
  s.submitJob
    { owner := .caller relayed, label, place := 0, name := label, body, submitted := s.clock,
      phase := .waiting }

/-! ## Ends from outside -/

/-- The body of a job ends, unless it has ended before. -/
def settleJob (s : State) (number : Nat) (ending : Ending) : State :=
  match s.jobs[number]? with
  | none => s
  | some job =>
    match job.phase with
    | .running times => s.settle number job times ending
    | _ => s

/-- The child of a job reports. Only its first report counts. -/
def childReports (s : State) (number : Nat) (report : ChildReport) : State :=
  match s.jobs[number]? with
  | none => s
  | some job =>
    match job.body with
    | .command line _ => s.settleJob number (report.ending line)
    | _ => s

/-- The child of a running command is sent a signal; it exits by it unless it ignores it. -/
def kill (s : State) (number : Nat) (line : String) (signal : String) : State :=
  let sent := { s with signalled := s.signalled ++ [{ job := number, signal }] }
  if (s.shell.child line).ignoresKill then sent
  -- the exit comes from outside, after everything that is under way has been done
  else sent.addTimer 0 (.child number (.exit none (some signal)))

/-- What the abort of its run means for one job. -/
def abortJob (s : State) (number : Nat) : State :=
  match s.jobs[number]? with
  | none => s
  | some job =>
    match job.phase, job.body with
    -- a command only ends when its child does
    | .running _, .command line _ => s.kill number line "SIGTERM"
    | .running times, body =>
      match body.abortEnding? with
      | some ending => s.settle number job times ending
      | none => s
    -- a job that waits will see the abort when its body is entered
    | _, _ => s

/-- A run is aborted: its jobs hear of it in the order in which they started. Only the first abort
of a run that has a signal means anything. -/
def abort (s : State) (run : Nat) : State :=
  match s.runs[run]? with
  | some r =>
    if r.signal = .armed then
      let marked := s.modifyRun run fun r => { r with signal := .aborted }
      ((s.jobsOf run).map (·.1)).foldl abortJob marked
    else s
  | none => s

/-- A body that waits to be told ends. A body can be told once. -/
def tellBody (s : State) (number : Nat) (ending : Ending) : State :=
  -- the handle is gone after the first time, even if the body has ended otherwise
  if number ∈ s.handles then { s with handles := s.handles.erase number }.settleJob number ending
  else s

/-! ## Timers -/

/-- An alarm goes off. -/
def sound (s : State) : Alarm → State
  | .settle job ending => s.settleJob job ending
  | .child job report => s.childReports job report
  | .abort run => s.abort run

/-- The timer at a place fires: the clock moves to its due time, unless it is past it already. -/
def fire (s : State) (place : Nat) : State :=
  match s.timers[place]? with
  | none => s
  | some timer =>
    -- a timer whose time has passed fires late, and does not set the clock back
    { s with clock := s.clock.max timer.due, timers := s.timers.eraseIdx place }.sound timer.alarm

/-- A stimulus, without the work that follows it. -/
def receive (s : State) : Stimulus → State
  | .settle request => s.submit request
  | .call label body relayed => s.submitCall label body relayed
  | .finish job ending => s.tellBody job ending
  | .abort run => s.abort run
  | .report job report => s.childReports job report
  | .setLevel level => { s with level }
  | .setClock clock => { s with clock }
  | .setLags lags => { s with lags }
  | .fire place => s.fire place

/-- A stimulus and all the work that follows it. -/
def respond (s : State) (stimulus : Stimulus) : State := (s.receive stimulus).drain

/-! ## The clock -/

/-- The place of the timer that fires first among those for which `isDue` holds. -/
def nextTimer? (isDue : Number → Bool) (timers : List Timer) : Option Nat :=
  let due := timers.zipIdx.filter fun (timer, _) => isDue timer.due
  (due.foldl
    -- of timers that are due at the same time the first to be made stays the best
    (fun (best : Option (Timer × Nat)) candidate =>
      match best with
      | some first => if Number.lt candidate.1.due first.1.due then some candidate else best
      | none => some candidate)
    none).map (·.2)

/-- Fire at most `fuel` timers for which `isDue` holds, one after the other, but none once `stop`
holds. -/
def fireWithin (isDue : Number → Bool) (stop : State → Bool) : Nat → State → State
  | 0, s => s
  | fuel + 1, s =>
    if stop s then s
    else
      match nextTimer? isDue s.timers with
      | none => s
      | some place => fireWithin isDue stop fuel (s.respond (.fire place))

/-- A bound on the timers that can still fire: each job makes at most one when it starts and one
when its child is sent a signal. -/
def alarms (s : State) : Nat := s.timers.length + 2 * s.jobs.length

/-- The clock moves on by `ms`, and what is due by then happens. -/
def advance (s : State) (ms : Number) : State :=
  let target := s.clock + ms
  { fireWithin (fun due => Number.le due target) (fun _ => false) s.alarms s with clock := target }

/-- Timers fire until something holds or none is left. -/
def runUntil (s : State) (stop : State → Bool) : State :=
  fireWithin (fun due => due != .nan) stop s.alarms s

/-- Timers fire until none is left. -/
def runOut (s : State) : State := s.runUntil fun _ => false

end State

end BoundedJobs
