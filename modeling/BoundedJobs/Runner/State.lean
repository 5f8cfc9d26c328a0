import BoundedJobs.Limiter
import BoundedJobs.Runner.Task

/-!
# The state of a runner

Several runs and direct calls share one limiter. Every task of a run and every direct call is a
*job*; jobs are numbered in the order in which they are submitted. A job waits for a slot, is
granted one, enters its body, settles, leaves, and is finished when its slot has been given back.
What has to be done next is kept in a queue of pieces of work, first in, first out.

* `Phase` — where a job stands on that way, with what is known about it by then;
* `Owner` — who asked for a job, and who hears first how its body has ended: the run of a task, a
  caller's function around the body, or the limiter itself;
* `Run` — the data of one run: its hooks, its signal, the failures so far, and its answer in the
  end;
* `Timer` — what happens later, and when;
* `Event` — what an observer sees happening;
* `State` — all of it together. `State.look` is one look at its clock, which may have moved on since
  the last one.
-/

namespace BoundedJobs

/-! ## Jobs -/

/-- When a job's body was entered, and how long the job had waited by then. -/
structure Times where
  waited : Number
  started : Number
  deriving Inhabited

/-- What a job has come to. -/
inductive Result where
  /-- A task of a run, with its outcome. -/
  | outcome (outcome : Outcome)
  /-- A task of a run during which a log line could not be written. -/
  | crashed (fault : Fault)
  /-- A direct call that returned, with the time it had waited. -/
  | returned (value : Value) (waited : Number)
  /-- A direct call that threw. -/
  | threw (value : Value)
  deriving Inhabited

/-- What a direct call hands back. -/
def Result.ofCall (times : Times) : Ending → Result
  | .returned value => returned value times.waited
  | .thrown value => threw value

/-- Where a job stands. -/
inductive Phase where
  /-- It waits for a slot. -/
  | waiting
  /-- It holds a slot, and its start is in the queue. -/
  | granted
  /-- Its body has been entered and has not settled. -/
  | running (times : Times)
  /-- Its body has settled, and its end is in the queue. -/
  | settled (times : Times) (ending : Ending)
  /-- Its end has been noted, and the return of its slot is in the queue. -/
  | leaving (result : Result)
  /-- Its slot has been given back. -/
  | finished (result : Result)
  deriving Inhabited

namespace Phase

/-- Whether a job has given its slot back. -/
def isFinished : Phase → Bool
  | finished _ => true
  | _ => false

/-- How many phases a job still has in front of it. -/
def distance : Phase → Nat
  | waiting => 5
  | granted => 4
  | running _ => 3
  | settled .. => 2
  | leaving _ => 1
  | finished _ => 0

end Phase

/-- Who asked for a job. -/
inductive Owner where
  /-- The run with a number, which waits for the body and notes its end. -/
  | run (number : Nat)
  /-- A direct caller. A body that is relayed is waited for inside an asynchronous function of the
  caller, which then hands on what it comes to; any other is itself the function that the limiter
  calls. -/
  | caller (relayed : Bool)
  deriving DecidableEq, Inhabited

/-- A task of a run, or a direct call. -/
structure Job where
  owner : Owner
  /-- The label of the run or call. -/
  label : String
  /-- The place among the tasks of the run. -/
  place : Nat
  name : String
  body : Body
  submitted : Number
  phase : Phase
  deriving Inhabited

namespace Job

/-- The number of the run of a job; a direct call has none. -/
def run? (job : Job) : Option Nat :=
  match job.owner with
  | .run number => some number
  | .caller _ => none

/-- Whether somebody between the body of a job and the limiter waits for the body. -/
def relays (job : Job) : Bool :=
  match job.owner with
  | .run _ => true
  | .caller relayed => relayed

/-- The phase of a job whose body has settled. A body that nobody waits for but the limiter has come
to its result by that. -/
def ended (job : Job) (times : Times) (ending : Ending) : Phase :=
  if job.relays then .settled times ending else .leaving (.ofCall times ending)

end Job

/-! ## Runs -/

/-- A hook records that it was called, and may then throw: something else for each place among the
tasks of its run, if it likes. -/
structure Hook where
  throws : Nat → Option Value
  deriving Inhabited

/-- The hooks of a run: one for the start and one for the end of each of its tasks. -/
structure Hooks where
  onStart : Option Hook := none
  onEnd : Option Hook := none
  deriving Inhabited

/-- The signal that a run was given. -/
inductive Signal where
  | none
  | armed
  | aborted
  deriving DecidableEq, Inhabited

/-- The data of one run. -/
structure Run where
  label : String
  /-- Whether failures make the run itself fail. -/
  strict : Bool
  hooks : Hooks
  signal : Signal
  startedAt : Number
  /-- The messages of the failures so far, in the order in which the tasks ended. -/
  failures : List String := []
  answer : Option (Except Fault Report) := .none
  deriving Inhabited

/-! ## Timers and events -/

/-- What a timer does when it is due. -/
inductive Alarm where
  /-- The body of a job ends. -/
  | settle (job : Nat) (ending : Ending)
  /-- The child of a job reports. -/
  | child (job : Nat) (report : ChildReport)
  /-- A run is aborted. -/
  | abort (run : Nat)
  deriving Inhabited

/-- An alarm and the time at which it goes off. -/
structure Timer where
  due : Number
  alarm : Alarm
  deriving Inhabited

/-- What an observer sees happening. Events carry the number of the job they are about. -/
inductive Event where
  | logged (line : String)
  /-- The start hook of a run was told of a task. -/
  | started (job : Nat) (run name : String)
  /-- The end hook of a run was told of a task. -/
  | ended (job : Nat) (run name : String) (outcome : Outcome)
  /-- The body of a job was entered; the last field says whether its signal was aborted. -/
  | entered (job : Nat) (label : String) (place : Nat) (aborted : Bool)
  /-- A direct call got its slot. -/
  | called (job : Nat) (label : String) (waited : Number)
  deriving Inhabited

/-- A child process that was asked for. -/
structure Spawn where
  job : Nat
  line : String
  quiet : Bool
  deriving Inhabited

/-- A signal that was sent to the child of a job. -/
structure Sent where
  job : Nat
  signal : String
  deriving DecidableEq, Inhabited

/-! ## The state -/

/-- A piece of work in the queue. -/
inductive Work where
  | start (job : Nat)
  | finish (job : Nat)
  | release (job : Nat)
  | conclude (run : Nat)
  deriving DecidableEq, Inhabited

/-- A runner at some moment. -/
structure State where
  slots : Semaphore Nat
  /-- What the clock showed when it was last looked at. -/
  clock : Number
  /-- How much time passes before each of the next looks at the clock; none once they are used up.
  -/
  lags : List Number := []
  level : Log.Level := .info
  shell : Shell := []
  queue : List Work := []
  jobs : List Job := []
  runs : List Run := []
  /-- The timers that have not fired, in the order in which they were made. -/
  timers : List Timer := []
  /-- The jobs whose body can still be told to end. -/
  handles : List Nat := []
  events : List Event := []
  spawned : List Spawn := []
  /-- The signals that were sent to children, in their order. -/
  signalled : List Sent := []
  /-- How many reports have been made. -/
  reports : Nat := 0

namespace State

/-- A runner on a limiter all of whose slots are free. -/
def idle (slots : Semaphore Nat) (clock : Number) (level : Log.Level) (shell : Shell) : State :=
  { slots, clock, level, shell }

/-- A look at the clock. Hooks, log lines and bodies may have taken some time since the last one. -/
def look (s : State) : State :=
  match s.lags with
  | [] => s
  | lag :: lags => { s with clock := s.clock + lag, lags }

/-- One more event has happened. -/
def emit (s : State) (event : Event) : State := { s with events := s.events ++ [event] }

/-- One more piece of work, behind all others. -/
def enqueue (s : State) (work : Work) : State := { s with queue := s.queue ++ [work] }

/-- A job moves on to a phase. -/
def setPhase (s : State) (job : Nat) (phase : Phase) : State :=
  { s with jobs := s.jobs.modify job fun j => { j with phase } }

/-- The data of one run change. -/
def modifyRun (s : State) (run : Nat) (change : Run → Run) : State :=
  { s with runs := s.runs.modify run change }

/-- An alarm goes off after a delay. -/
def addTimer (s : State) (delay : Number) (alarm : Alarm) : State :=
  { s with timers := s.timers ++ [{ due := s.clock + delay, alarm }] }

/-- Write a log line, if its level is written. The fault is that of a line that cannot be. -/
def logged (s : State) (level : Log.Level) (message : String) (data : Value := .absent) :
    State × Option Fault :=
  match Log.line? s.clock s.level level message data with
  | .error fault => (s, some fault)
  | .ok none => (s, none)
  | .ok (some line) => (s.emit (.logged line), none)

/-- Whether the signal of a job's run is aborted. -/
def isAborted (s : State) (job : Job) : Bool :=
  match job.run?.bind (s.runs[·]?) with
  | some run => run.signal = .aborted
  | none => false

/-- The jobs of a run with their numbers, in the order of its tasks. -/
def jobsOf (s : State) (run : Nat) : List (Nat × Job) :=
  (s.jobs.zipIdx.filter (·.1.run? = some run)).map fun (job, i) => (i, job)

/-- How many slots are held. -/
def active (s : State) : Nat := s.slots.active

/-- How many jobs wait for a slot. -/
def pending (s : State) : Nat := s.slots.pending

end State

end BoundedJobs
