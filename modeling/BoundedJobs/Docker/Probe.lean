import BoundedJobs.Docker.Info
import BoundedJobs.Text.Blank

/-!
# Asking the docker daemon

The first question to a probe starts a query: something is executed, by a call that returns at once
with a promise of its outcome. When it has returned, the query is kept. Whoever asks from then on
waits for its answer or gets it at once, and a failure is kept like any other answer. What is
executed may ask the probe itself before the call returns. Then nothing has been kept yet, so one
more query is started within the first one.

* `Docker.Execution.answer` — what running a program comes to: its output, or an error whose text
  holds what the program wrote to its error stream;
* `Docker.interpret` — what the outcome of a query means. Whatever goes wrong is reported as one
  `DockerError`, with the first error as its cause;
* `Docker.Probe` — the questions asked so far and the queries that they wait for; `Probe.ask`,
  `Probe.returned`, `Probe.settle` — a question, the return of a call and the end of what was
  executed; `Probe.replies` — the replies to the questions.
-/

namespace BoundedJobs

namespace Docker

/-! ## The query -/

/-- How an executed program ended: the error of running it, if any, and the text of its two
streams. -/
structure Execution where
  error : Option String := some "spawn docker ENOENT"
  stdout : String := ""
  stderr : String := ""
  deriving Inhabited

/-- The output of a program, or the error it failed with. The trimmed text of its error stream is
added to the message. -/
def Execution.answer (e : Execution) : Except Value Text :=
  match e.error with
  | none => .ok (.ofString e.stdout)
  | some message =>
    let detail := Text.trimmed e.stderr
    let text := if detail.isEmpty then message else message ++ ": " ++ detail
    .error (Fault.value
      { kind := .plain, message := text, cause := some (Fault.plain message).value })

/-- The error for a daemon that gave no usable answer. -/
def unavailable (reason : String) (cause : Value) : Fault :=
  { kind := .docker, message := "docker is not available: " ++ reason, cause := some cause }

/-- What the outcome of a query means. The reason of a failure is put into the message as text,
which some values refuse. -/
def interpret (outcome : Except Value Text) : Except Fault Info :=
  match outcome with
  | .error failure => do
    let complaint ← failure.complaint
    -- a failure without a text escapes as another error than the one of docker
    let reason ← complaint.spelled
    .error (unavailable reason failure)
  | .ok output =>
    match Info.parse output with
    | .ok info => .ok info
    | .error fault =>
      -- an answer in the wrong form is complained of by an error of docker already
      .error (if fault.kind = .docker then fault else unavailable fault.message fault.value)

/-! ## The probe -/

/-- What is asked of a probe: the information itself, or only whether there is any. -/
inductive Question where
  | info
  | available
  deriving DecidableEq

/-- The answer to a question. -/
inductive Reply where
  | info (result : Except Fault Info)
  | available (result : Bool)

/-- The reply to a question once the query has a result. -/
def Question.reply (result : Except Fault Info) : Question → Reply
  | info => .info result
  | available => .available result.toBool

/-- A probe, with its queries numbered in the order in which they were started. -/
structure Probe where
  /-- The questions in the order in which they were asked, each with the query that it waits for. -/
  questions : List (Question × Nat) := []
  /-- How many queries were started. -/
  queries : Nat := 0
  /-- The queries whose call has not returned, the innermost first. -/
  calls : List Nat := []
  /-- The query that is kept. -/
  kept : Option Nat := none
  /-- The results of the queries that have ended. -/
  results : List (Nat × Except Fault Info) := []

namespace Probe

/-- One more question. If no query is kept, it starts one and waits for it. -/
def ask (p : Probe) (question : Question) : Probe :=
  match p.kept with
  | some query => { p with questions := p.questions ++ [(question, query)] }
  -- the call starts before there is anything to keep
  | none =>
    { p with
      questions := p.questions ++ [(question, p.queries)]
      queries := p.queries + 1
      calls := p.queries :: p.calls }

/-- The innermost call returns, and its query is kept from now on. -/
def returned (p : Probe) : Probe :=
  match p.calls with
  | [] => p
  -- an outer call that returns later replaces what an inner one has kept
  | query :: calls => { p with calls, kept := some query }

/-- The result of a query, if it has ended. -/
def result? (p : Probe) (query : Nat) : Option (Except Fault Info) := p.results.lookup query

/-- Whether a query waits for the end of what was executed: its call has returned, and it has no
result yet. -/
def Awaits (p : Probe) (query : Nat) : Prop :=
  query < p.queries ∧ query ∉ p.calls ∧ p.result? query = none

instance (p : Probe) (query : Nat) : Decidable (p.Awaits query) :=
  inferInstanceAs (Decidable (_ ∧ _ ∧ _))

/-- What was executed for a query comes to its end. An end that the query does not wait for changes
nothing. -/
def settle (p : Probe) (query : Nat) (outcome : Except Value Text) : Probe :=
  if p.Awaits query then { p with results := p.results ++ [(query, interpret outcome)] } else p

/-- The replies to the questions, in their order; nothing as long as the query has not ended. -/
def replies (p : Probe) : List (Option Reply) :=
  p.questions.map fun (question, query) => (p.result? query).map question.reply

end Probe

end Docker

end BoundedJobs
