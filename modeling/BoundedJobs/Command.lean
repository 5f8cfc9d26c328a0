import BoundedJobs.Log

/-!
# Shell commands as tasks

A command is run by a child process, and the first thing that the child reports decides how its
task ends: an exit with code zero is a success, any other exit and any error are a `CommandError`
that names the command. An abort that comes before the task starts keeps the child from being
spawned; one that comes later sends the child one `SIGTERM` and leaves the decision to what the
child reports.

* `Command.fault` — the error of a command, with the reason that its message gives;
* `Command.Ending` — how a command's task has ended;
* `Command.Session` — one task with its child, from before the start;
* `Session.start`, `Session.exit`, `Session.error`, `Session.abort` — what can happen to it.
-/

namespace BoundedJobs

namespace Command

/-! ## The error of a command -/

/-- Why a command failed: the signal that ended it, else its exit code, else the error that caused
it. -/
def reason (exitCode : Option Number) (signal : Option String) (cause : Option Value) :
    Except Fault String :=
  match signal.filter (!·.isEmpty), exitCode with
  | some name, _ => .ok ("terminated by " ++ name)
  | none, some code => .ok ("exited with code " ++ code.text)
  | none, none =>
    match cause with
    | some .revoked => .error Value.noAccess
    | some value =>
      if value.isFault then do
        let message ← value.message?
        let text ← message.spelled
        return "failed: " ++ text
      else .ok "failed"
    | none => .ok "failed"

/-- The error of a command. Only a cause that refuses to give its message can keep it from being
made. -/
def fault (line : String) (exitCode : Option Number) (signal : Option String)
    (cause : Option Value) : Except Fault Fault := do
  let reason ← reason exitCode signal cause
  return { kind := .command line exitCode signal, cause,
           message := "Command \"" ++ line ++ "\" " ++ reason }

/-! ## How a task ends -/

/-- How a command's task has ended. -/
inductive Ending where
  | succeeded
  /-- The task hands back an error. -/
  | failed (fault : Fault)
  /-- The task itself breaks off with a value. -/
  | broke (thrown : Value)

/-- The task that ends with an error, unless making the error breaks it off. -/
def Ending.ofFault (made : Except Fault Fault) : Ending :=
  match made with
  | .ok fault => .failed fault
  | .error thrown => .broke thrown.value

/-- The end that the exit of a child decides. -/
def Ending.ofExit (line : String) (code : Option Number) (signal : Option String) : Ending :=
  if code = some 0 then .succeeded else .ofFault (fault line code signal none)

/-- The end that an abort before the start decides. -/
def Ending.ofCause (line : String) (cause : Value) : Ending :=
  .ofFault (fault line none none (some cause))

/-- The debug line about a command that is about to be spawned. -/
def startMessage (line : String) : String := "Running \"" ++ line ++ "\""

/-! ## A task and its child -/

/-- What the process of a command is given. -/
structure Options where
  quiet : Bool := false
  directory : Option String := none
  environment : Option Value := none

/-- What is done to the outside while a command's task runs. -/
inductive Act where
  | logged (line : String)
  | spawned (line : String) (options : Options)
  | signalled (name : String)
  /-- A second error of a child, which nobody listens to. -/
  | unheard

/-- How far a session is. -/
inductive Stage where
  | idle
  /-- The child lives and has reported nothing. -/
  | live
  | over (ending : Ending)

/-- A command's task with its child, at some moment. -/
structure Session where
  line : String
  options : Options := {}
  /-- The reason of the abort, once there was one. -/
  aborted : Option Value := none
  stage : Stage := .idle
  hasChild : Bool := false
  errorHeard : Bool := false

namespace Session

/-- The end of the task, once it has ended. -/
def ending? (s : Session) : Option Ending :=
  match s.stage with
  | .over ending => some ending
  | _ => none

/-- Start the task. `spawnError` is the value that spawning the child throws, if it does. -/
def start (s : Session) (clock : Number) (level : Log.Level) (spawnError : Option Value) :
    Session × List Act :=
  match s.stage with
  | .idle =>
    match s.aborted with
    -- after an abort no child is asked for and nothing is written
    | some reason => ({ s with stage := .over (.ofCause s.line reason) }, [])
    | none =>
      match Log.line? clock level .debug (startMessage s.line) .absent with
      | .error refused => ({ s with stage := .over (.broke refused.value) }, [])
      | .ok line =>
        let acts := line.toList.map Act.logged ++ [.spawned s.line s.options]
        -- what spawning throws is handed on as it is, without the name of the command
        match spawnError with
        | some thrown => ({ s with stage := .over (.broke thrown) }, acts)
        | none => ({ s with stage := .live, hasChild := true }, acts)
  | _ => (s, [])

/-- The child exits. Only the first report of a child decides anything. -/
def exit (s : Session) (code : Option Number) (signal : Option String) : Session :=
  match s.stage with
  | .live => { s with stage := .over (.ofExit s.line code signal) }
  | _ => s

/-- The child reports an error. A second one meets no listener. The first is looked at even when the
task has ended; one that refuses to give its message is thrown back at the child. -/
def error (s : Session) (error : Value) : Except Fault (Session × List Act) :=
  if !s.hasChild then .ok (s, [])
  else if s.errorHeard then .ok (s, [.unheard])
  else do
    -- the message is asked for before anything is marked, so a refusal leaves the session as it is
    let made ← fault s.line none none (some error)
    let heard := { s with errorHeard := true }
    match s.stage with
    | .live => return ({ heard with stage := .over (.failed made) }, [])
    | _ => return (heard, [])

/-- The task is aborted. A live child is sent one signal; `atOnce` is the exit with which it answers
while the signal is still being sent, if it does. -/
def abort (s : Session) (reason : Value) (atOnce : Option (Option Number × Option String)) :
    Session × List Act :=
  match s.aborted with
  | some _ => (s, [])
  | none =>
    let marked := { s with aborted := some reason }
    match s.stage with
    | .live =>
      match atOnce with
      | some (code, signal) => (marked.exit code signal, [.signalled "SIGTERM"])
      | none => (marked, [.signalled "SIGTERM"])
    -- the reason is kept for a task that has not started
    | _ => (marked, [])

end Session

end Command

end BoundedJobs
