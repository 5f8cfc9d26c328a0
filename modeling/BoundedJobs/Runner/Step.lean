import BoundedJobs.Runner.State

/-!
# The work of a runner

One piece of work is taken from the front of the queue at a time, and done to its end before the
next one.

* `State.start` — a granted job logs how long it has waited, tells its hook and enters its body;
* `State.finish` — a settled job notes its outcome and its failure, and tells its hook;
* `State.release` — a job that is leaving gives its slot back, which passes straight on to the
  first job that waits; the last job of a run puts the run's conclusion in the queue;
* `State.conclude` — a run whose jobs are all finished gets its report;
* `State.tick`, `State.drain` — one piece of work, and all of it. Every piece moves some job or
  run on or is dropped, so `State.effort` bounds how many there can be.

A log line that cannot be written ends the job it belongs to, but never its hold on the slot: that
goes the same way as after any other end.
-/

namespace BoundedJobs

namespace State

/-! ## Leaving -/

/-- A job has come to a result: the return of its slot is put in the queue. -/
def leave (s : State) (job : Nat) (result : Result) : State :=
  (s.setPhase job (.leaving result)).enqueue (.release job)

/-- A hook of a run is told something about the task at a place. What it throws is logged and
otherwise ignored; the fault is that of a log line that cannot be written. -/
def tellHook (s : State) (hookName : String) (hook : Option Hook) (place : Nat) (event : Event) :
    State × Option Fault :=
  match hook with
  | none => (s, none)
  | some hook =>
    let told := s.emit event
    -- the hook has been called, whether it throws or not
    match hook.throws place with
    | none => (told, none)
    | some thrown =>
      told.logged .warn (hookName ++ " callback threw") (Log.errorData (.text thrown.failureText))

/-! ## The end of a body -/

/-- The outcome of a task that has ended now. -/
def outcomeOf (s : State) (job : Job) (times : Times) (ending : Ending) : Outcome :=
  let error := ending.failure?
  { name := job.name, status := if error.isSome then .failed else .ok, error,
    waitedMs := times.waited, durationMs := s.clock - times.started }

/-- Note the failure of a task, if it is one: the run keeps its message, and it is logged. -/
def noteFailure (s : State) (run : Nat) (job : Job) (ending : Ending) : State × Option Fault :=
  match ending.failure? with
  | none => (s, none)
  | some message =>
    let noted := s.modifyRun run fun (r : Run) => { r with failures := r.failures ++ [message] }
    noted.logged .debug ("Parallel job \"" ++ job.name ++ "\" failed")
      (Log.errorData (.text message))

/-- A task of a run has ended. -/
def wrapUpTask (s : State) (number run : Nat) (job : Job) (times : Times) (ending : Ending) :
    State :=
  -- the end is the moment of this look, before the failure text is made
  let s := s.look
  let outcome := s.outcomeOf job times ending
  match s.noteFailure run job ending with
  -- a crash here takes the place of the outcome, and the hook is not told
  | (noted, some fault) => noted.leave number (.crashed fault)
  | (noted, none) =>
    let hook := (s.runs[run]?).bind (·.hooks.onEnd)
    match noted.tellHook "onTaskEnd" hook job.place (.ended number job.label job.name outcome) with
    | (told, none) => told.leave number (.outcome outcome)
    | (told, some fault) => told.leave number (.crashed fault)

/-- The body of a job has ended: the job comes to its result. -/
def wrapUp (s : State) (number : Nat) (job : Job) (times : Times) (ending : Ending) : State :=
  match job.run? with
  | some run => s.wrapUpTask number run job times ending
  | none => s.leave number (.ofCall times ending)

/-! ## The return of a slot -/

/-- A slot is given back; the first job that waits is granted it. -/
def passOn (s : State) : State :=
  match s.slots.giveBack with
  -- the slot is never free in between: nobody can overtake the waiter
  | (slots, some next) => ({ s with slots }.setPhase next .granted).enqueue (.start next)
  | (slots, none) => { s with slots }

/-- A function that throws before anything is waited for gives its slot back at once. -/
def bounce (s : State) (number : Nat) (times : Times) (value : Value) : State :=
  (s.setPhase number (.finished (.ofCall times (.thrown value)))).passOn

/-! ## The start of a body -/

/-- The body of a job settles: its end is put in the queue, or the return of its slot if nobody but
the limiter waits for the body. -/
def settle (s : State) (number : Nat) (job : Job) (times : Times) (ending : Ending) : State :=
  -- a task and a relayed call wait for their body by a step of their own
  if job.relays then
    (s.setPhase number (.settled times ending.effective)).enqueue (.finish number)
  else s.leave number (.ofCall times ending.effective)

/-- The body of a job goes on. -/
def run (s : State) (number : Nat) (times : Times) : State := s.setPhase number (.running times)

/-- The body of a job can be told to end. -/
def giveHandle (s : State) (number : Nat) : State := { s with handles := s.handles ++ [number] }

/-- The command of a job is started. After an abort there is no child, only the error. -/
def enterCommand (s : State) (number : Nat) (job : Job) (times : Times) (line : String)
    (quiet : Bool) : State :=
  if s.isAborted job then
    s.settle number job times (Ending.ofCommand (.ofCause line Fault.aborted.value))
  else
    match s.logged .debug (Command.startMessage line) with
    -- the body has been entered, so a line that cannot be written fails the task
    | (s, some fault) => s.settle number job times (.thrown fault.value)
    | (s, none) =>
      -- the child is asked for even where spawning it throws
      let child := s.shell.child line
      let asked : State := { s with spawned := s.spawned ++ [{ job := number, line, quiet }] }
      match child.spawnError with
      | some message => asked.settle number job times (.thrown (Fault.plain message).value)
      | none => (asked.run number times).addTimer child.delay (.child number child.report)

/-- The body of a job is entered. -/
def enter (s : State) (number : Nat) (job : Job) (times : Times) : State :=
  let aborted := s.isAborted job
  let entered := s.emit (.entered number job.label job.place aborted)
  match job.body with
  | .command line quiet => entered.enterCommand number job times line quiet
  -- a body that throws before it has given a promise is over in this very step
  | .immediate (.thrown value) =>
    if job.relays then entered.wrapUp number job times (.thrown value)
    else entered.bounce number times value
  | .immediate ending => entered.settle number job times ending
  | .prompt ending => entered.settle number job times ending
  -- a body with a handler for an abort that has come already does not wait at all
  | .timed delay ending onAbort =>
    match aborted, onAbort with
    | true, some early => entered.settle number job times early
    | _, _ => (entered.run number times).addTimer delay (.settle number ending)
  | .manual onAbort =>
    match aborted, onAbort with
    | true, some early => entered.settle number job times early
    | _, _ => (entered.run number times).giveHandle number

/-- The debug line about a task that starts. -/
def waitMessage (job : Job) (waited : Number) : String :=
  "Parallel job \"" ++ job.name ++ "\" waited " ++ waited.text ++ "ms before starting"

/-- A task of a run starts. -/
def startTask (s : State) (number run : Nat) (job : Job) (waited : Number) : State :=
  match s.logged .debug (waitMessage job waited) with
  | (s, some fault) => s.leave number (.crashed fault)
  | (s, none) =>
    let hook := (s.runs[run]?).bind (·.hooks.onStart)
    match s.tellHook "onTaskStart" hook job.place (.started number job.label job.name) with
    | (told, some fault) => told.leave number (.crashed fault)
    | (told, none) =>
      -- logging and the hook may have taken time, so the clock is read once more
      let told := told.look
      told.enter number job { waited, started := told.clock }

/-! ## Pieces of work -/

/-- A granted job starts. -/
def start (s : State) (number : Nat) : State :=
  match s.jobs[number]? with
  | none => s
  | some job =>
    match job.phase with
    | .granted =>
      -- what has been waited is fixed before anything else is done
      let s := s.look
      let waited := s.clock - job.submitted
      match job.run? with
      | some run => s.startTask number run job waited
      | none =>
        (s.emit (.called number job.label waited)).enter number job { waited, started := s.clock }
    -- only a granted job starts, and it starts once
    | _ => s

/-- A settled job comes to its result. -/
def finish (s : State) (number : Nat) : State :=
  match s.jobs[number]? with
  | none => s
  | some job =>
    match job.phase with
    | .settled times ending => s.wrapUp number job times ending
    | _ => s

/-- Whether a run has no answer yet and none of its jobs is under way. -/
def isComplete (s : State) (run : Nat) : Bool :=
  (s.runs[run]?).any (·.answer.isNone) && (s.jobsOf run).all fun (_, job) => job.phase.isFinished

/-- What the result of a job means for its run: a crash is the run's answer if it is the first,
and the last job to finish puts the conclusion in the queue. -/
def reportBack (s : State) (job : Job) (result : Result) : State :=
  match job.run? with
  | none => s
  | some run =>
    let answered : State :=
      -- only the first crash is kept, and what comes later cannot replace it
      match result with
      | .crashed fault =>
        s.modifyRun run fun (r : Run) =>
          if r.answer.isNone then { r with answer := some (.error fault) } else r
      | _ => s
    if answered.isComplete run then answered.enqueue (.conclude run) else answered

/-- A job that is leaving gives its slot back. -/
def release (s : State) (number : Nat) : State :=
  match s.jobs[number]? with
  | none => s
  | some job =>
    match job.phase with
    | .leaving result => ((s.setPhase number (.finished result)).passOn).reportBack job result
    | _ => s

/-! ## Reports -/

/-- The name of the report with a number, counted from one. -/
def reportId (number : Nat) : String :=
  let digits := Nat.toDigits 10 number
  "00000000-0000-4000-8000-" ++ String.ofList (List.replicate (12 - digits.length) '0' ++ digits)

/-- The outcomes of the finished tasks of a run, in the order of its tasks. -/
def outcomes (s : State) (run : Nat) : List Outcome :=
  (s.jobsOf run).filterMap fun (_, job) =>
    match job.phase with
    | .finished (.outcome outcome) => some outcome
    | _ => none

/-- The report of a run that has just finished. -/
def reportOf (s : State) (number : Nat) (run : Run) : Report :=
  { runId := reportId (s.reports + 1), maxParallel := Number.ofNat s.slots.capacity,
    failures := run.failures, tasks := s.outcomes number, startedAt := run.startedAt,
    finishedAt := s.clock, durationMs := s.clock - run.startedAt }

/-- The answer of a run: its report, or one error for all its failures if it is strict. -/
def answerOf (run : Run) (report : Report) : Except Fault Report :=
  if run.strict && !report.failures.isEmpty then .error (Fault.ofFailures report.failures)
  else .ok report

/-- A run without an answer gets one. -/
def conclude (s : State) (number : Nat) : State :=
  match s.runs[number]? with
  | none => s
  | some run =>
    match run.answer with
    -- a crash has answered already, and no report is made
    | some _ => s
    | none =>
      let s := s.look
      let answer := answerOf run (s.reportOf number run)
      let answered := s.modifyRun number fun (r : Run) => { r with answer := some answer }
      { answered with reports := s.reports + 1 }

/-! ## Ticks -/

/-- A piece of work is done. -/
def perform (s : State) : Work → State
  | .start job => s.start job
  | .finish job => s.finish job
  | .release job => s.release job
  | .conclude run => s.conclude run

/-- The first piece of work in the queue is done. -/
def tick (s : State) : State :=
  match s.queue with
  | [] => s
  | work :: rest => { s with queue := rest }.perform work

/-- A bound on the pieces of work that can still be done without anything from outside: every
piece leaves the queue, and for each job that it moves on it puts at most one other piece in. -/
def effort (s : State) : Nat :=
  s.queue.length + 2 * s.jobs.foldr (fun job total => job.phase.distance + total) 0

/-- At most `fuel` pieces of work. -/
def drainWithin : Nat → State → State
  | 0, s => s
  | fuel + 1, s => if s.queue.isEmpty then s else drainWithin fuel s.tick

/-- All work that can be done without anything from outside. -/
def drain (s : State) : State := drainWithin s.effort s

end State

end BoundedJobs
