import BoundedJobs.Proofs.Runner.Line

/-!
# What does not depend on how a job ends

Some jobs are under suspicion. The outline of a state is what is left of it when nothing can be seen
any more of how these jobs end, of hooks, messages and answers, and of events: the state of a runner
in which every suspect throws a plain error, and nobody is told anything.

* `Body.tamed` — the body that goes on for as long, and then throws a plain error;
* `State.outline` — the outline;
* `outline_setPhase`, `outline_passOn` and the like — the outline after a small change is the
  outline before it, changed in the same way;
* `outline_receive` — the outline of the state after a stimulus is the outline after that stimulus,
  with the endings in it blotted out.

A function on states thus need not be compared with itself in two runs: it is enough that the
outline of what it makes can be told from the outline of what it is given.
-/

namespace BoundedJobs

/-! ## Outlines of the parts -/

/-- What a task throws that throws a plain error. -/
def Value.plainError : Value := (Fault.plain "failed").value

/-- The body that goes on for as long as the given one and then throws a plain error. A command ends
with errors of the library's own making, and is left as it is. -/
def Body.tamed : Body → Body
  | .immediate (.thrown _) => .immediate (.thrown .plainError)
  | .immediate (.returned _) => .prompt (.thrown .plainError)
  | .prompt _ => .prompt (.thrown .plainError)
  | .timed delay _ onAbort =>
    .timed delay (.thrown .plainError) (onAbort.map fun _ => .thrown .plainError)
  | .manual onAbort => .manual (onAbort.map fun _ => .thrown .plainError)
  | .command line quiet => .command line quiet

/-- The shell command that a body runs. -/
def Body.line? : Body → Option String
  | .command line _ => some line
  | _ => none

/-- Of the body of a suspect no more is left than how long it goes on. -/
def Body.outline (suspect : Bool) (body : Body) : Body := if suspect then body.tamed else body

/-- A suspect throws a plain error. -/
def Ending.outline (suspect : Bool) (ending : Ending) : Ending :=
  if suspect then .thrown .plainError else ending

/-- The task of a suspect has failed, and nobody can read how. Its times stay. -/
def Outcome.outline (suspect : Bool) (outcome : Outcome) : Outcome :=
  if suspect then { outcome with status := .failed, error := none } else outcome

/-- What a direct call of a suspect hands back is that plain error. -/
def Result.outline (suspect : Bool) : Result → Result
  | .outcome final => .outcome (final.outline suspect)
  | .crashed fault => .crashed fault
  | .returned value waited => if suspect then .threw .plainError else .returned value waited
  | .threw value => if suspect then .threw .plainError else .threw value

/-- The phase of a suspect shows how far it is, and neither its ending nor its result. -/
def Phase.outline (suspect : Bool) : Phase → Phase
  | .settled times ending => .settled times (ending.outline suspect)
  | .leaving result => .leaving (result.outline suspect)
  | .finished result => .finished (result.outline suspect)
  | phase => phase

/-- Who a job is stays, and where it stands. -/
def Job.outline (suspect : Bool) (job : Job) : Job :=
  { job with body := job.body.outline suspect, phase := job.phase.outline suspect }

/-- All that is left of an answer is that there is one. -/
def Run.outline (run : Run) : Run :=
  { run with hooks := {}, failures := [], answer := run.answer.map fun _ => .ok default }

/-- The timer of a suspect's body lets it throw a plain error. -/
def Alarm.outline (suspect : Nat → Bool) : Alarm → Alarm
  | .settle job ending => .settle job (ending.outline (suspect job))
  | alarm => alarm

/-- Timers stay as they are due. -/
def Timer.outline (suspect : Nat → Bool) (timer : Timer) : Timer :=
  { timer with alarm := timer.alarm.outline suspect }

/-- A request without its hooks, in which the bodies of some places are those of suspects. -/
def Request.outline (suspect : Nat → Bool) (request : Request) : Request :=
  { request with
    hooks := {}
    tasks := request.tasks.mapIdx fun place task =>
      { task with body := task.body.outline (suspect place) } }

/-- The outline of a stimulus; `next` is the number that the next job gets. -/
def Stimulus.outline (suspect : Nat → Bool) (next : Nat) : Stimulus → Stimulus
  | .settle request => .settle (request.outline fun place => suspect (next + place))
  | .call label body relayed => .call label (body.outline (suspect next)) relayed
  | .finish job ending => .finish job (ending.outline (suspect job))
  | .setLevel _ => .setLevel .info
  | stimulus => stimulus

section Idempotent

variable (suspect : Bool)

theorem Ending.outline_outline (ending : Ending) :
    (ending.outline suspect).outline suspect = ending.outline suspect := by
  cases suspect <;> rfl

/-- What a body comes to in the end can be read off after its ending has been blotted out. -/
theorem Ending.outline_effective (ending : Ending) :
    ending.effective.outline suspect = (ending.outline suspect).effective := by
  cases suspect <;> rfl

theorem Body.outline_command (line : String) (quiet : Bool) :
    (Body.command line quiet).outline suspect = .command line quiet := by
  cases suspect <;> rfl

theorem Body.outline_prompt (ending : Ending) :
    (Body.prompt ending).outline suspect = .prompt (ending.outline suspect) := by
  cases suspect <;> rfl

theorem Body.outline_timed (delay : Number) (ending : Ending) (onAbort : Option Ending) :
    (Body.timed delay ending onAbort).outline suspect
      = .timed delay (ending.outline suspect) (onAbort.map (Ending.outline suspect)) := by
  cases suspect <;> cases onAbort <;> rfl

theorem Body.outline_manual (onAbort : Option Ending) :
    (Body.manual onAbort).outline suspect = .manual (onAbort.map (Ending.outline suspect)) := by
  cases suspect <;> cases onAbort <;> rfl

theorem Body.outline_outline (body : Body) :
    (body.outline suspect).outline suspect = body.outline suspect := by
  cases suspect with
  | false => rfl
  | true =>
    rcases body with ⟨_ | _⟩ | _ | ⟨_, _, _ | _⟩ | ⟨_ | _⟩ | _ <;> rfl

/-- What a direct call hands back is blotted out with its ending. -/
theorem Result.outline_ofCall (times : Times) (ending : Ending) :
    (Result.ofCall times ending).outline suspect = .ofCall times (ending.outline suspect) := by
  cases suspect <;> cases ending <;> rfl

theorem Result.outline_outline (result : Result) :
    (result.outline suspect).outline suspect = result.outline suspect := by
  cases suspect <;> cases result <;> rfl

theorem Phase.outline_outline (phase : Phase) :
    (phase.outline suspect).outline suspect = phase.outline suspect := by
  cases phase with
  | waiting | granted | running => rfl
  | settled times ending => exact congrArg (Phase.settled times) (ending.outline_outline suspect)
  | leaving result => exact congrArg Phase.leaving (result.outline_outline suspect)
  | finished result => exact congrArg Phase.finished (result.outline_outline suspect)

theorem Job.outline_outline (job : Job) :
    (job.outline suspect).outline suspect = job.outline suspect := by
  unfold Job.outline
  rw [job.body.outline_outline, job.phase.outline_outline]

theorem Run.outline_outline (run : Run) : run.outline.outline = run.outline := by
  unfold Run.outline
  cases run.answer <;> rfl

theorem Timer.outline_outline (suspect : Nat → Bool) (timer : Timer) :
    (timer.outline suspect).outline suspect = timer.outline suspect := by
  obtain ⟨due, alarm⟩ := timer
  cases alarm with
  | settle job ending =>
    exact congrArg (fun e => Timer.mk due (.settle job e)) (ending.outline_outline _)
  | child | abort => rfl

/-- A suspect is told of an abort as before, and answers it with a plain error. -/
theorem Body.abortEnding?_outline (body : Body) :
    (body.outline suspect).abortEnding? = body.abortEnding?.map (Ending.outline suspect) := by
  cases suspect with
  | false =>
    change body.abortEnding? = body.abortEnding?.map id
    rw [Option.map_id]
    rfl
  | true =>
    rcases body with ⟨_ | _⟩ | _ | ⟨_, _, _ | _⟩ | ⟨_ | _⟩ | _ <;> rfl

/-- The command of a suspect is still that command. -/
theorem Body.line?_outline (body : Body) : (body.outline suspect).line? = body.line? := by
  cases suspect with
  | false => rfl
  | true =>
    rcases body with ⟨_ | _⟩ | _ | _ | _ | _ <;> rfl

/-- Whether a job has given its slot back can still be seen. -/
theorem Phase.isFinished_outline (phase : Phase) :
    (phase.outline suspect).isFinished = phase.isFinished := by
  cases phase <;> rfl

end Idempotent

namespace State

variable {s t : State} {number run : Nat} {job : Job}

/-- What is left of a state when the endings of some jobs cannot be seen. -/
def outline (suspect : Nat → Bool) (s : State) : State :=
  { s with
    level := .info
    jobs := s.jobs.mapIdx fun number => Job.outline (suspect number)
    runs := s.runs.map Run.outline
    timers := s.timers.map (Timer.outline suspect)
    events := [] }

variable (suspect : Nat → Bool)

/-! ## Outlines of small changes -/

theorem outline_jobs (s : State) (number : Nat) :
    (s.outline suspect).jobs[number]? = (s.jobs[number]?).map (Job.outline (suspect number)) :=
  List.getElem?_mapIdx

theorem outline_runs (s : State) (run : Nat) :
    (s.outline suspect).runs[run]? = (s.runs[run]?).map Run.outline :=
  List.getElem?_map

/-- There is nothing more to blot out in an outline. -/
theorem outline_outline (s : State) :
    (s.outline suspect).outline suspect = s.outline suspect := by
  -- jobs, runs and timers are all that is blotted out
  have hjobs : ((s.jobs.mapIdx fun number => Job.outline (suspect number)).mapIdx
      fun number => Job.outline (suspect number))
      = s.jobs.mapIdx fun number => Job.outline (suspect number) := by
    refine List.ext_getElem? fun number => ?_
    rw [List.getElem?_mapIdx, List.getElem?_mapIdx, Option.map_map]
    exact congrArg (Option.map · _) (funext fun job => job.outline_outline _)
  have hruns : (s.runs.map Run.outline).map Run.outline = s.runs.map Run.outline := by
    rw [List.map_map]
    exact congrArg (List.map · _) (funext fun run => run.outline_outline)
  have htimers : (s.timers.map (Timer.outline suspect)).map (Timer.outline suspect)
      = s.timers.map (Timer.outline suspect) := by
    rw [List.map_map]
    exact congrArg (List.map · _) (funext fun timer => timer.outline_outline suspect)
  unfold outline
  rw [hjobs, hruns, htimers]

/-- A look at the clock shows in the outline as it is. -/
theorem outline_look (s : State) : s.look.outline suspect = (s.outline suspect).look := by
  unfold look outline
  dsimp only
  split <;> rfl

theorem outline_looks (s : State) (count : Nat) :
    (s.looks count).outline suspect = (s.outline suspect).looks count := by
  induction count generalizing s with
  | zero => rfl
  | succ count ih => rw [looks_succ, looks_succ, ih, outline_look]

/-- A job that moves on does so in the outline, to the outline of its phase. -/
theorem outline_setPhase (s : State) (number : Nat) (phase : Phase) :
    (s.setPhase number phase).outline suspect
      = (s.outline suspect).setPhase number (phase.outline (suspect number)) := by
  have hjobs : ((s.jobs.modify number fun j => { j with phase }).mapIdx
      fun number => Job.outline (suspect number))
      = (s.jobs.mapIdx fun number => Job.outline (suspect number)).modify number
        fun j => { j with phase := phase.outline (suspect number) } := by
    refine List.ext_getElem? fun i => ?_
    rw [List.getElem?_mapIdx, List.getElem?_modify, List.getElem?_modify, List.getElem?_mapIdx]
    cases s.jobs[i]? with
    | none => rfl
    | some job =>
      -- the phase that the job had before is in neither of the two lists
      by_cases heq : number = i
      · subst heq
        simp only [if_true, Option.map_some]
        rfl
      · simp only [if_neg heq, Option.map_some]
        rfl
  exact congrArg (fun jobs => ({ s.outline suspect with jobs } : State)) hjobs

/-- A change of a run that can be made out in the outline of the run. -/
theorem outline_modifyRun (s : State) (run : Nat) {change change' : Run → Run}
    (h : ∀ run, (change run).outline = change' run.outline) :
    (s.modifyRun run change).outline suspect
      = (s.outline suspect).modifyRun run change' := by
  have hruns : (s.runs.modify run change).map Run.outline
      = (s.runs.map Run.outline).modify run change' := by
    refine List.ext_getElem? fun i => ?_
    rw [List.getElem?_map, List.getElem?_modify, List.getElem?_modify, List.getElem?_map]
    cases s.runs[i]? with
    | none => rfl
    | some r =>
      -- the other runs are left alone on both sides
      by_cases heq : run = i
      · simp only [if_pos heq]
        exact congrArg some (h r)
      · simp only [if_neg heq, Option.map_some]
        rfl
  exact congrArg (fun runs => ({ s.outline suspect with runs } : State)) hruns

theorem outline_leave (s : State) (number : Nat) (result : Result) :
    (s.leave number result).outline suspect
      = (s.outline suspect).leave number (result.outline (suspect number)) :=
  congrArg (enqueue · (.release number)) (s.outline_setPhase suspect number (.leaving result))

/-- The body of a job settles at the same moment, with the ending that is left. -/
theorem outline_settle (s : State) (number : Nat) (job : Job) (known : Bool) (times : Times)
    (ending : Ending) :
    (s.settle number job times ending).outline suspect
      = (s.outline suspect).settle number (job.outline known) times
          (ending.outline (suspect number)) := by
  have hrelays : (job.outline known).relays = job.relays := rfl
  unfold settle
  rw [hrelays, ← ending.outline_effective, ← Result.outline_ofCall]
  split
  · exact congrArg (enqueue · (.finish number))
      (s.outline_setPhase suspect number (.settled times ending.effective))
  · exact outline_leave suspect s number _

theorem outline_run (s : State) (number : Nat) (times : Times) :
    (s.run number times).outline suspect = (s.outline suspect).run number times :=
  outline_setPhase suspect s number (.running times)

theorem outline_addTimer (s : State) (delay : Number) (alarm : Alarm) :
    (s.addTimer delay alarm).outline suspect
      = (s.outline suspect).addTimer delay (alarm.outline suspect) := by
  unfold addTimer
  exact congrArg (fun timers => ({ s.outline suspect with timers } : State)) List.map_append

/-- A slot passes on to the same job. -/
theorem outline_passOn (s : State) :
    s.passOn.outline suspect = (s.outline suspect).passOn := by
  cases hw : s.slots.waiters with
  | nil =>
    rw [passOn_of_idle hw, passOn_of_idle (s := s.outline suspect) hw]
    rfl
  | cons next others =>
    rw [passOn_of_waiting hw, passOn_of_waiting (s := s.outline suspect) hw]
    exact congrArg (enqueue · (.start next)) (outline_setPhase suspect
      { s with slots := { s.slots with waiters := others } } next .granted)

/-- A call that is over at once gives its slot back at once in the outline too. -/
theorem outline_bounce (s : State) (number : Nat) (times : Times) (value : Value) :
    (s.bounce number times value).outline suspect
      = ((s.outline suspect).setPhase number
          (.finished ((Result.threw value).outline (suspect number)))).passOn := by
  unfold bounce
  rw [outline_passOn, outline_setPhase]
  rfl

/-- The signal of a run stays in its outline. -/
theorem isAborted_outline (s : State) (job : Job) (known : Bool) :
    (s.outline suspect).isAborted (job.outline known) = s.isAborted job := by
  have hrun : (job.outline known).run? = job.run? := rfl
  unfold isAborted
  rw [hrun]
  cases job.run? with
  | none => rfl
  | some run =>
    rw [Option.bind_some, Option.bind_some, outline_runs]
    cases s.runs[run]? <;> rfl

/-- A run has the same jobs, in the same order. -/
theorem jobsOf_outline (s : State) (run : Nat) :
    (s.outline suspect).jobsOf run
      = (s.jobsOf run).map fun entry => (entry.1, entry.2.outline (suspect entry.1)) := by
  have hzip : (s.jobs.mapIdx fun number => Job.outline (suspect number)).zipIdx
      = s.jobs.zipIdx.map fun entry => (entry.1.outline (suspect entry.2), entry.2) := by
    refine List.ext_getElem? fun number => ?_
    rw [List.getElem?_zipIdx, List.getElem?_mapIdx, List.getElem?_map, List.getElem?_zipIdx]
    cases s.jobs[number]? with
    | none => rfl
    | some job =>
      simp only [Option.map_some, Nat.zero_add]
  unfold jobsOf
  change ((s.jobs.mapIdx fun number => Job.outline (suspect number)).zipIdx.filter _).map _ = _
  rw [hzip, List.filter_map, List.map_map, List.map_map]
  rfl

/-- A run is complete at the same moment. -/
theorem isComplete_outline (s : State) (run : Nat) :
    (s.outline suspect).isComplete run = s.isComplete run := by
  have hanswer : ((s.outline suspect).runs[run]?).any (·.answer.isNone)
      = (s.runs[run]?).any (·.answer.isNone) := by
    rw [outline_runs]
    cases s.runs[run]? with
    | none => rfl
    | some r =>
      change (r.answer.map _).isNone = r.answer.isNone
      exact Option.isNone_map
  have hjobs : ((s.outline suspect).jobsOf run).all (fun entry => entry.2.phase.isFinished)
      = (s.jobsOf run).all fun entry => entry.2.phase.isFinished := by
    rw [jobsOf_outline, List.all_map]
    exact congrArg _ (funext fun entry => entry.2.phase.isFinished_outline _)
  exact congrArg₂ and hanswer hjobs

/-! ## Stimuli -/

/-- A job that asks for a slot gets one or not, whatever its body. -/
theorem outline_submitJob (s : State) (job : Job) :
    (s.submitJob job).outline suspect
      = (s.outline suspect).submitJob (job.outline (suspect s.jobs.length)) := by
  -- whether there is a slot for the job is not seen from its body
  have hjobs : ∀ phase : Phase, phase.outline (suspect s.jobs.length) = phase →
      ((s.jobs ++ [{ job with phase }]).mapIdx fun number => Job.outline (suspect number))
        = (s.outline suspect).jobs
          ++ [{ job.outline (suspect s.jobs.length) with phase }] := by
    intro phase hphase
    rw [List.mapIdx_append, List.mapIdx_singleton, Nat.zero_add]
    refine congrArg (_ ++ [·]) ?_
    unfold Job.outline
    rw [hphase]
  have hlength : (s.outline suspect).jobs.length = s.jobs.length := List.length_mapIdx
  cases hopen : s.slots.isOpen with
  | true =>
    rw [submitJob_of_open hopen, submitJob_of_open (s := s.outline suspect) hopen, hlength,
      ← hjobs .granted rfl]
    rfl
  | false =>
    rw [submitJob_of_closed hopen, submitJob_of_closed (s := s.outline suspect) hopen, hlength,
      ← hjobs .waiting rfl]
    rfl

theorem outline_foldl_submitJob (jobs : List Job) (s : State) :
    (jobs.foldl submitJob s).outline suspect
      = (jobs.mapIdx fun place => Job.outline (suspect (s.jobs.length + place))).foldl submitJob
          (s.outline suspect) := by
  induction jobs generalizing s with
  | nil => rfl
  | cons job jobs ih =>
    obtain ⟨phase, hjobs, -⟩ := submitJob_jobs s job
    have hlength : (s.submitJob job).jobs.length = s.jobs.length + 1 := by
      rw [hjobs, List.length_append, List.length_singleton]
    rw [List.foldl_cons, ih, List.mapIdx_cons, List.foldl_cons, outline_submitJob, hlength,
      Nat.add_zero]
    -- the others get the numbers behind that of the first
    refine congrArg (List.foldl _ _) ?_
    refine congrArg (List.mapIdx · jobs) (funext fun place => ?_)
    rw [Nat.add_right_comm, Nat.add_assoc]

/-- The run that a request opens, in outline. -/
theorem outline_runFor (s : State) (request : Request) (known : Nat → Bool) :
    (s.runFor request).outline = (s.outline suspect).runFor (request.outline known) := by
  unfold runFor
  rw [← outline_look]
  rfl

/-- The jobs that a request brings, in outline: they are submitted at the same moments. -/
theorem outline_newcomers (s : State) (request : Request) :
    (s.newcomers (.settle request)).mapIdx (fun place =>
        Job.outline (suspect (s.jobs.length + place)))
      = (s.outline suspect).newcomers
          (.settle (request.outline fun place => suspect (s.jobs.length + place))) := by
  have hnumber : (s.outline suspect).runs.length = s.runs.length := List.length_map _
  refine List.ext_getElem? fun place => ?_
  unfold newcomers
  simp only [List.getElem?_mapIdx, List.getElem?_map, List.getElem?_zipIdx, Nat.zero_add]
  unfold Request.outline
  simp only [List.getElem?_mapIdx]
  cases request.tasks[place]? with
  | none => rfl
  -- the moment of a submission is that of its look, and looks are not blotted out
  | some task =>
    simp only [Option.map_some]
    unfold nextJob jobOf
    rw [hnumber, ← outline_looks]
    rfl

/-- A request is submitted as its outline is. -/
theorem outline_submit (s : State) (request : Request) :
    (s.submit request).outline suspect
      = (s.outline suspect).submit
          (request.outline fun place => suspect (s.jobs.length + place)) := by
  have hnumber : (s.outline suspect).runs.length = s.runs.length := List.length_map _
  have htasks : (request.outline fun place => suspect (s.jobs.length + place)).tasks.length
      = request.tasks.length := List.length_mapIdx
  -- the run is opened with the same looks at the clock
  have hopened : (s.opened request).outline suspect
      = (s.outline suspect).opened
          (request.outline fun place => suspect (s.jobs.length + place)) := by
    have hruns : (s.runs ++ [s.runFor request]).map Run.outline
        = (s.outline suspect).runs ++ [(s.outline suspect).runFor
            (request.outline fun place => suspect (s.jobs.length + place))] := by
      rw [List.map_append, List.map_singleton, outline_runFor suspect s request]
      rfl
    unfold opened
    rw [htasks, ← outline_looks, ← hruns]
    rfl
  have hlength : (s.opened request).jobs.length = s.jobs.length := by rw [opened_eq]
  rw [submit_eq, submit_eq, ← outline_newcomers, hnumber, ← hopened]
  cases s.newcomers (.settle request) with
  | nil => rfl
  -- the numbers of the new jobs start where the old ones end
  | cons job jobs =>
    rw [if_neg (by simp), if_neg (by simp), outline_foldl_submitJob, hlength]

/-- The body of a job ends from outside, with the ending that is left. -/
theorem outline_settleJob (s : State) (number : Nat) (ending : Ending) :
    (s.settleJob number ending).outline suspect
      = (s.outline suspect).settleJob number (ending.outline (suspect number)) := by
  have hjobs := outline_jobs suspect s number
  cases hj : s.jobs[number]? with
  | none =>
    rw [hj] at hjobs
    unfold settleJob
    rw [hj, hjobs]
    rfl
  | some job =>
    rw [hj] at hjobs
    -- the outline of a phase is a phase of the same kind
    cases hphase : job.phase with
    | running times =>
      have hphase' : (job.outline (suspect number)).phase = .running times :=
        congrArg (Phase.outline _) hphase
      rw [settleJob_eq hj hphase, settleJob_eq (s := s.outline suspect) hjobs hphase']
      rw [← settle_eq_place, ← settle_eq_place]
      exact s.outline_settle suspect number job _ times ending
    | waiting | granted | settled | leaving | finished =>
      unfold settleJob
      simp only [hj, hjobs, Option.map_some, Job.outline, hphase, Phase.outline]

/-- A child is sent the same signal, and exits by it or does not. -/
theorem outline_kill (s : State) (number : Nat) (line signal : String) :
    (s.kill number line signal).outline suspect = (s.outline suspect).kill number line signal := by
  unfold kill
  change State.outline suspect (if (s.shell.child line).ignoresKill then _ else _)
    = if (s.shell.child line).ignoresKill then _ else _
  split
  · rfl
  · exact outline_addTimer suspect
      { s with signalled := s.signalled ++ [{ job := number, signal }] } 0 _

/-- What an abort means for a job depends on its phase, its command and its answer to an abort. -/
theorem abortJob_eq (hj : s.jobs[number]? = some job) :
    s.abortJob number =
      match job.phase with
      | .running times =>
        match job.body.line?, job.body.abortEnding? with
        | some line, _ => s.kill number line "SIGTERM"
        | none, some ending => s.settle number job times ending
        | none, none => s
      | _ => s := by
  unfold abortJob
  simp only [hj]
  cases job.phase with
  | running times =>
    cases job.body with
    | command line quiet => rfl
    | immediate | prompt => rfl
    | timed delay ending onAbort => cases onAbort <;> rfl
    | manual onAbort => cases onAbort <;> rfl
  | waiting | granted | settled | leaving | finished => rfl

/-- A job hears of an abort as its outline does. -/
theorem outline_abortJob (s : State) (number : Nat) :
    (s.abortJob number).outline suspect = (s.outline suspect).abortJob number := by
  have hjobs := outline_jobs suspect s number
  cases hj : s.jobs[number]? with
  | none =>
    rw [hj] at hjobs
    unfold abortJob
    rw [hj, hjobs]
    rfl
  | some job =>
    rw [hj] at hjobs
    rw [abortJob_eq hj, abortJob_eq (s := s.outline suspect) hjobs]
    -- a suspect is a command, or heeds an abort, exactly if its outline does
    change State.outline suspect (match job.phase with | .running times => _ | _ => _)
      = match job.phase.outline (suspect number) with | .running times => _ | _ => _
    cases job.phase with
    | running times =>
      change State.outline suspect (match job.body.line?, job.body.abortEnding? with
          | some line, _ => _ | none, some ending => _ | none, none => _)
        = match (job.body.outline (suspect number)).line?,
            (job.body.outline (suspect number)).abortEnding? with
          | some line, _ => _ | none, some ending => _ | none, none => _
      rw [job.body.line?_outline, job.body.abortEnding?_outline]
      cases job.body.line? with
      | some line => exact outline_kill suspect s number line "SIGTERM"
      | none =>
        cases job.body.abortEnding? with
        | none => rfl
        | some ending => exact outline_settle suspect s number job _ times ending
    | waiting | granted | settled | leaving | finished => rfl

/-- A run is aborted as its outline is. -/
theorem outline_abort (s : State) (run : Nat) :
    (s.abort run).outline suspect = (s.outline suspect).abort run := by
  have hfold : ∀ (numbers : List Nat) (s : State),
      (numbers.foldl abortJob s).outline suspect = numbers.foldl abortJob (s.outline suspect) := by
    intro numbers
    induction numbers with
    | nil => exact fun _ => rfl
    | cons number numbers ih =>
      intro s
      rw [List.foldl_cons, ih, outline_abortJob]
      rfl
  -- the same jobs hear of it, in the same order
  have hnumbers : ((s.outline suspect).jobsOf run).map (·.1) = (s.jobsOf run).map (·.1) := by
    rw [jobsOf_outline, List.map_map]
    rfl
  unfold abort
  rw [outline_runs, hnumbers]
  cases s.runs[run]? with
  | none => rfl
  | some r =>
    change State.outline suspect (if r.signal = .armed then _ else _)
      = if r.signal = .armed then _ else _
    split
    · have hmarked : (s.modifyRun run fun r => { r with signal := .aborted }).outline suspect
          = (s.outline suspect).modifyRun run fun r => { r with signal := .aborted } :=
        outline_modifyRun suspect s run fun _ => rfl
      rw [hfold, hmarked]
    · rfl

/-- A body can be told to end as long as its outline can. -/
theorem outline_tellBody (s : State) (number : Nat) (ending : Ending) :
    (s.tellBody number ending).outline suspect
      = (s.outline suspect).tellBody number (ending.outline (suspect number)) := by
  unfold tellBody
  change State.outline suspect (if number ∈ s.handles then _ else _)
    = if number ∈ s.handles then _ else _
  split
  · exact outline_settleJob suspect { s with handles := s.handles.erase number } number ending
  · rfl

/-- What a report of a child means depends on the command alone. -/
theorem childReports_eq (hj : s.jobs[number]? = some job) (report : ChildReport) :
    s.childReports number report =
      match job.body.line? with
      | some line => s.settleJob number (report.ending line)
      | none => s := by
  unfold childReports
  simp only [hj]
  cases job.body <;> rfl

/-- What a child reports is the ending of its command, and cannot be seen in the outline of the
state after it. -/
theorem outline_childReports (s : State) (number : Nat) (report : ChildReport) :
    (s.childReports number report).outline suspect
      = ((s.outline suspect).childReports number report).outline suspect := by
  have hjobs := outline_jobs suspect s number
  cases hj : s.jobs[number]? with
  | none =>
    rw [hj] at hjobs
    unfold childReports
    rw [hj, hjobs]
    exact (outline_outline suspect s).symm
  | some job =>
    rw [hj] at hjobs
    rw [childReports_eq hj, childReports_eq (s := s.outline suspect) hjobs]
    change _ = State.outline suspect
      (match (job.body.outline (suspect number)).line? with | some line => _ | none => _)
    rw [job.body.line?_outline]
    cases job.body.line? with
    | none => exact (outline_outline suspect s).symm
    | some line => rw [outline_settleJob, outline_settleJob, outline_outline]

/-- The same timer fires, and lets a suspect throw a plain error. -/
theorem outline_fire (s : State) (place : Nat) :
    (s.fire place).outline suspect = ((s.outline suspect).fire place).outline suspect := by
  have htimers : (s.outline suspect).timers[place]?
      = (s.timers[place]?).map (Timer.outline suspect) := List.getElem?_map
  unfold fire
  rw [htimers]
  cases s.timers[place]? with
  | none => exact (outline_outline suspect s).symm
  | some timer =>
    -- the timer goes first, and then its alarm sounds
    let fired : State :=
      { s with clock := s.clock.max timer.due, timers := s.timers.eraseIdx place }
    have hfired : ({ s.outline suspect with
        clock := s.clock.max timer.due
        timers := (s.timers.map (Timer.outline suspect)).eraseIdx place } : State)
        = fired.outline suspect := by
      rw [List.eraseIdx_map]
      rfl
    change (fired.sound timer.alarm).outline suspect = State.outline suspect
      (State.sound { s.outline suspect with
        clock := s.clock.max timer.due
        timers := (s.timers.map (Timer.outline suspect)).eraseIdx place }
        (timer.alarm.outline suspect))
    rw [hfired]
    cases timer.alarm with
    | settle number ending =>
      change (fired.settleJob number ending).outline suspect
        = ((fired.outline suspect).settleJob number (ending.outline _)).outline suspect
      -- a suspect may settle otherwise than its outline, and only then is it made alike
      rw [← outline_settleJob, outline_outline]
    | child number report => exact outline_childReports suspect fired number report
    | abort run =>
      change (fired.abort run).outline suspect
        = ((fired.outline suspect).abort run).outline suspect
      rw [← outline_abort, outline_outline]

/-- **A stimulus shows in the outline as far as its own outline goes.** -/
theorem outline_receive (s : State) (stimulus : Stimulus) :
    (s.receive stimulus).outline suspect
      = ((s.outline suspect).receive (stimulus.outline suspect s.jobs.length)).outline suspect := by
  -- most stimuli lead to an outline at once
  have hexact : ∀ t : State, (s.receive stimulus).outline suspect = t →
      (s.receive stimulus).outline suspect = t.outline suspect := by
    rintro t rfl
    exact (outline_outline suspect _).symm
  cases stimulus with
  | settle request => exact hexact _ (outline_submit suspect s request)
  | call label body relayed =>
    have hclock : (s.outline suspect).look.clock = s.look.clock := by
      rw [← outline_look]
      rfl
    refine hexact _ ((outline_submitJob suspect s.look _).trans ?_)
    rw [look_jobs, outline_look]
    change _ = (s.outline suspect).look.submitJob _
    rw [hclock]
    rfl
  | finish number ending => exact hexact _ (outline_tellBody suspect s number ending)
  | abort run => exact hexact _ (outline_abort suspect s run)
  | report number report => exact outline_childReports suspect s number report
  | setLevel | setClock | setLags => exact hexact _ rfl
  | fire place => exact outline_fire suspect s place

end State

end BoundedJobs
