import BoundedJobs.Command
import BoundedJobs.Runner.Report
import BoundedJobs.Value.Numeric

/-!
# Tasks

A task is known to the runner by its name and by how its body behaves once it has been entered.

* `Ending` — how a body ends: it returns a value or throws one;
* `Body` — when it ends: at once, after a time, when it is told to, or when its shell command
  does;
* `Task.title`, `Task.titleAt` — the name under which a task is reported: its own, or its place
  among its siblings;
* `Child` — what the process of a command does.
-/

namespace BoundedJobs

/-- How the body of a task ends. -/
inductive Ending where
  | returned (value : Value)
  | thrown (value : Value)
  deriving Inhabited

/-- What an ending comes to for whoever waits for it: a revoked value cannot even be handed over. -/
def Ending.effective : Ending → Ending
  | returned .revoked => thrown Value.noAccess.value
  | other => other

/-- The message of an ending that is a failure. Returning an error object is one, throwing
anything is. -/
def Ending.failure? : Ending → Option String
  | returned value => if value.isFault then some value.failureText else none
  | thrown value => some value.failureText

/-- The ending of a body whose command has ended. -/
def Ending.ofCommand : Command.Ending → Ending
  | .succeeded => returned .absent
  | .failed fault => returned fault.value
  | .broke value => thrown value

/-- How the body of a task behaves. -/
inductive Body where
  /-- Ends at once; a throw is seen by the caller before anything else happens. -/
  | immediate (ending : Ending)
  /-- Has already ended when the caller starts to wait for it. -/
  | prompt (ending : Ending)
  /-- Ends after a delay, or as `onAbort` says when its run is aborted before. -/
  | timed (delay : Number) (ending : Ending) (onAbort : Option Ending)
  /-- Ends when it is told to, or as `onAbort` says when its run is aborted before. -/
  | manual (onAbort : Option Ending)
  /-- Runs a shell command. -/
  | command (line : String) (quiet : Bool)
  deriving Inhabited

/-- A task: its name, if it has one of its own, and its body. -/
structure Task where
  name : Option String
  body : Body
  deriving Inhabited

/-- The name under which a task is reported: its own, or else its place, counted from one. -/
def Task.title (task : Task) (place : Nat) : String :=
  task.name.getD ("task-" ++ toString (place + 1))

/-- What comes after a place that may be any value: a number is counted on, and a text or an object
is continued by the digit one. -/
def nextPlace (place : Value) : Except Fault String :=
  match place with
  | .text s => .ok (s ++ "1")
  | _ =>
    if place.isObject then (· ++ "1") <$> place.spelled
    else do
      let n ← place.toNumber
      return (n + 1).text

/-- The name under which a task is reported whose place may be any value. -/
def Task.titleAt (task : Task) (place : Value) : Except Fault String :=
  match task.name with
  | some name => .ok name
  | none => ("task-" ++ ·) <$> nextPlace place

/-- The ending of a body that was entered, or would be entered, after the abort of its run. -/
def Body.abortEnding? : Body → Option Ending
  | timed _ _ onAbort => onAbort
  | manual onAbort => onAbort
  | _ => none

/-! ## Child processes -/

/-- The one report of a child process. -/
inductive ChildReport where
  | exit (code : Option Number) (signal : Option String)
  | error (message : String)
  deriving Inhabited

/-- What the process of a command does: it reports after a delay, unless it cannot be spawned. -/
structure Child where
  delay : Number := 0
  report : ChildReport := .exit (some 0) none
  spawnError : Option String := none
  ignoresKill : Bool := false
  deriving Inhabited

/-- The ending of a command's task that the report of its child decides. -/
def ChildReport.ending (line : String) : ChildReport → Ending
  | exit code signal => Ending.ofCommand (.ofExit line code signal)
  | error message => Ending.ofCommand (.ofCause line (Fault.plain message).value)

/-- The children of the commands, by command. A command without an entry exits at once with code
zero. -/
abbrev Shell := List (String × Child)

/-- The child of a command. -/
def Shell.child (shell : Shell) (line : String) : Child := (Json.lookupLast line shell).getD {}

end BoundedJobs
