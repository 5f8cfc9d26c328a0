import BoundedJobs.Cli.Arguments
import BoundedJobs.History.Basic
import BoundedJobs.Runner.Stimulus
import BoundedJobs.Timestamp.Reading

/-!
# Carrying out a command line

A command line is carried out in a world: the settings and the environment, the machine's CPU
count, the docker daemon, the shell whose children it spawns, the clock, and the history that all
command lines share. What it leaves behind is the world after it and an output.

A program that comes to its end waits for all that is still due, the interrupt included, and the
clock goes along. One that exits, after a help text, a refused command line or a fault, does not.

* `Cli.World`, `Cli.Output` — the two sides;
* `Cli.World.run` — the command `run`: a limiter, one run of all commands under a signal that an
  interrupt aborts, the report, and its entry in the history;
* `Cli.World.capacity`, `Cli.World.dockerInfo`, `Cli.World.list` — the other commands;
* `Cli.World.execute` — a whole command line.
-/

namespace BoundedJobs

namespace Cli

/-- All that a command line can look at or change. -/
structure World where
  settings : Settings := .default
  environment : Environment := []
  clock : Number
  cpuCount : Value := .number 8
  docker : Docker.Execution := {}
  shell : Shell := []
  history : History := {}
  /-- How many reports have been made. -/
  reports : Nat := 0

/-- What a command line writes and does. -/
structure Output where
  stdout : String := ""
  stderr : String := ""
  failed : Bool := false
  /-- Whether the program exited, without waiting for what was still due. -/
  exited : Bool := false
  /-- How often docker was executed. -/
  queries : Nat := 0
  spawned : List Spawn := []
  level : Log.Level := .info

/-- A text as a line. -/
def asLine (text : String) : String := text ++ "\n"

/-- Texts as lines. -/
def asLines (texts : List String) : String := String.join (texts.map asLine)

namespace Output

/-- A text for the error stream about what has failed. -/
def complain (o : Output) (text : String) : Output :=
  { o with stderr := o.stderr ++ text, failed := true }

/-- The program exits at once. -/
def exit (o : Output) : Output := { o with exited := true }

/-- A fault escapes from a command: its message goes to the error stream, and the program exits. -/
def escape (o : Output) (fault : Fault) : Output := (o.complain (asLine fault.message)).exit

end Output

/-! ## Texts -/

/-- A task in the report of `run`. -/
def taskLine (outcome : Outcome) : String :=
  let mark := match outcome.status with
    | .ok => "+"
    | .failed => "x"
  -- an empty failure text leaves no blank behind
  let error := (outcome.error.filter (!·.isEmpty)).elim "" fun text => " " ++ text
  "[" ++ mark ++ "] " ++ outcome.name ++ " (" ++ outcome.durationMs.text ++ "ms)" ++ error

/-- The last line of the report of `run`. -/
def summaryLine (report : Report) : String :=
  "\n" ++ toString report.tasks.length ++ " job(s), " ++ toString report.failures.length
    ++ " failed, " ++ report.durationMs.text ++ "ms at -j" ++ report.maxParallel.text

/-- The report of `run`. -/
def reportText (report : Report) : String :=
  asLines (report.tasks.map taskLine ++ [summaryLine report])

/-- The failures of `run`, on the error stream. -/
def failureText (report : Report) : String :=
  asLine ("\nRun failed:\n" ++ (Fault.ofFailures report.failures).message)

/-- The moment at which a run in the history started; it may have been kept as text. -/
def startOf (entry : History.Entry) : Number :=
  match entry.startedAt with
  | .number n => n
  | .text s => Timestamp.ofText s
  | _ => .nan

/-- A run in the list of `history`. -/
def historyLine (entry : History.Entry) : Except Fault String := do
  let moment ← Timestamp.text (startOf entry)
  let status :=
    if entry.failures.isEmpty then "ok" else toString entry.failures.length ++ " failed"
  return moment ++ "  " ++ entry.runId.getD "null" ++ "  " ++ toString entry.tasks.length
    ++ " job(s)  " ++ status ++ "  " ++ entry.durationMs.text ++ "ms"

/-- The lines of the runs up to the first that has none, with the fault that stops there. -/
def historyLines : List History.Entry → List String × Option Fault
  | [] => ([], none)
  | entry :: entries =>
    match historyLine entry with
    | .error fault => ([], some fault)
    | .ok line =>
      let (lines, fault) := historyLines entries
      (line :: lines, fault)

namespace World

/-- What the world is to work that is done at a log level. -/
def surroundings (w : World) (level : Log.Level) : Surroundings :=
  { settings := w.settings, environment := w.environment, clock := w.clock, level,
    cpuCount := w.cpuCount }

/-- The probe that is used when none is given. -/
def probe (w : World) : Option Capacity.ProbeAnswer := Capacity.daemonProbe w.settings w.docker

/-- The world once an interrupt has come, if one comes and the program has not exited before. -/
def outlast (w : World) (interrupt : Option Number) (output : Output) : World :=
  if output.exited then w
  else { w with clock := interrupt.elim w.clock fun delay => w.clock.max (w.clock + delay) }

/-! ## The commands -/

/-- The limiter for `run`: of the given size, or of the one that is detected. -/
def limiter (w : World) (level : Log.Level) (jobs : Option Number) : Attempt (Limiter Nat) :=
  Limiter.create (w.surroundings level) (jobs.map .number) w.probe

/-- The commands of `run`, as one request. -/
def request (commands : List String) (quiet : Bool) : Request :=
  { label := "run", signal := .armed,
    tasks := commands.map fun line => { name := some line, body := .command line quiet } }

/-- The runner of `run` once everything has been submitted and done that can be done at once. -/
def opened (w : World) (level : Log.Level) (slots : Semaphore Nat) (commands : List String)
    (quiet : Bool) (interrupt : Option Number) : State :=
  let idle := { State.idle slots w.clock level w.shell with reports := w.reports }
  -- the interrupt is set before the run is submitted, and so is the first of the alarms
  let armed := interrupt.elim idle fun delay => idle.addTimer delay (.abort 0)
  armed.respond (.settle (request commands quiet))

/-- The lines among events. -/
def linesOf (events : List Event) : List String :=
  events.filterMap fun event =>
    match event with
    | .logged line => some line
    | _ => none

/-- The answer of the one run of a runner. -/
def answer? (s : State) : Option (Except Fault Report) := (s.runs[0]?).bind (·.answer)

/-- A report of `run` is printed and recorded; its failures come last. -/
def concluded (w : World) (report : Report) (record : Bool) (output : Output) : World × Output :=
  let printed := { output with stdout := output.stdout ++ reportText report }
  let recorded : Except Fault History :=
    if record && w.settings.historyEnabled then w.history.record (.ofReport report)
    else .ok w.history
  match recorded with
  -- a report that could not be kept has been printed all the same
  | .error fault => (w, printed.escape fault)
  | .ok history =>
    let world := { w with history }
    -- the exit code is set last, so a fault of the history hides the failures
    if report.failures.isEmpty then (world, printed)
    else (world, printed.complain (failureText report))

/-- The command `run`. -/
def run (w : World) (level : Log.Level) (commands : List String) (jobs : Option Number)
    (quiet record : Bool) (interrupt : Option Number) : World × Output :=
  let attempt := w.limiter level jobs
  let base : Output := { stderr := asLines attempt.lines, queries := attempt.probeCalls, level }
  match attempt.result with
  | .error fault => (w, base.escape fault)
  | .ok limiter =>
    let opened := w.opened level limiter.slots commands quiet interrupt
    -- the clock moves from alarm to alarm until the run has its answer
    let answered := opened.runUntil fun s => (answer? s).isSome
    let world := { w with clock := answered.clock, reports := answered.reports }
    let output :=
      { base with
        stderr := base.stderr ++ asLines (linesOf answered.events), spawned := answered.spawned }
    match answer? answered with
    | some (.ok report) =>
      let (next, printed) := world.concluded report record output
      -- children and timers that are left keep the program alive until they are through
      (if printed.exited then next else { next with clock := answered.runOut.clock }, printed)
    | some (.error fault) => (world, output.escape fault)
    -- nothing is left that could end the run, and so the program ends
    | none => (world, output)

/-- The command `capacity`. -/
def capacity (w : World) (level : Log.Level) (askDocker : Bool) : Output :=
  let attempt := Capacity.detect (w.surroundings level) (if askDocker then w.probe else none)
  let base : Output := { stderr := asLines attempt.lines, queries := attempt.probeCalls, level }
  match attempt.result with
  | .error fault => base.escape fault
  | .ok cap =>
    -- the cap is printed as it was detected, before any limiter checks it
    match cap.maxParallel.spelled with
    | .error fault => base.escape fault
    | .ok text => { base with stdout := asLine (text ++ " (" ++ cap.source.name ++ ")") }

/-- The command `docker-info`. -/
def dockerInfo (w : World) (level : Log.Level) : Output :=
  let base : Output := { queries := 1, level }
  match Docker.interpret w.docker.answer with
  | .ok info => { base with stdout := asLine info.json.indented }
  | .error fault => base.complain (asLine fault.message)

/-- The command `history`. -/
def list (w : World) (level : Log.Level) (limit : Option Number) (clear : Bool) : World × Output :=
  let base : Output := { level }
  if clear then
    match w.history.clear with
    | .ok (count, history) =>
      ({ w with history },
       { base with stdout := asLine ("Deleted " ++ toString count ++ " run(s).") })
    | .error fault => (w, base.escape fault)
  else
    match w.history.list w.settings (limit.elim .absent .number) with
    | .error fault => (w, base.escape fault)
    | .ok [] => (w, { base with stdout := asLine "No runs recorded." })
    | .ok entries =>
      match historyLines entries with
      | (lines, none) => (w, { base with stdout := asLines lines })
      -- what comes before the run that has no line has been printed by then
      | (lines, some fault) => (w, { base with stdout := asLines lines }.escape fault)

/-- A command with its options. -/
def carryOut (w : World) (invocation : Invocation) (interrupt : Option Number) : World × Output :=
  let level : Log.Level := if invocation.debug then .debug else .info
  match invocation.action with
  | .run commands jobs quiet record => w.run level commands jobs quiet record interrupt
  | .capacity askDocker =>
    let output := w.capacity level askDocker
    (w.outlast interrupt output, output)
  | .dockerInfo =>
    let output := w.dockerInfo level
    (w.outlast interrupt output, output)
  | .history limit clear =>
    let (world, output) := w.list level limit clear
    (world.outlast interrupt output, output)

/-- A command line. -/
def execute (w : World) (arguments : List String) (interrupt : Option Number) : World × Output :=
  match read arguments with
  | .print text => (w, { stdout := text, exited := true })
  | .refuse text => (w, { stderr := text, failed := true, exited := true })
  | .invoke invocation => w.carryOut invocation interrupt

end World

end Cli

end BoundedJobs
