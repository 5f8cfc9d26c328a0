import BoundedJobs.Proofs.Runner.Lockstep

/-!
# States that only observers can tell apart

Two states are alike when they differ in nothing but the log level, the hooks of their runs, and
what observers have been told. Whatever is done to two such states leaves two such states behind:

* `Alike.receive` — when the same stimulus arrives, but for the hooks of a run that is submitted;
* `Alike.tick` — when the first piece of work is done, while the clock shows a date. Lines and hooks
  stand in the middle of that work, but all that they can do to it is not to be writable.
-/

namespace BoundedJobs

/-- The data of a run without its hooks. -/
def Run.unhooked (run : Run) : Run := { run with hooks := {} }

/-- A stimulus without the hooks of the run that it submits, if it submits one. -/
def Stimulus.unhooked : Stimulus → Stimulus
  | .settle request => .settle { request with hooks := {} }
  | stimulus => stimulus

namespace State

/-- The states differ in nothing but level, hooks and events. -/
structure Alike (s t : State) : Prop where
  slots : s.slots = t.slots
  clock : s.clock = t.clock
  lags : s.lags = t.lags
  shell : s.shell = t.shell
  queue : s.queue = t.queue
  jobs : s.jobs = t.jobs
  runs : s.runs.map Run.unhooked = t.runs.map Run.unhooked
  timers : s.timers = t.timers
  handles : s.handles = t.handles
  spawned : s.spawned = t.spawned
  signalled : s.signalled = t.signalled
  reports : s.reports = t.reports

namespace Alike

variable {s t u : State}

/-- A state is like itself, and likeness goes both ways and adds up. -/
theorem refl (s : State) : Alike s s :=
  ⟨rfl, rfl, rfl, rfl, rfl, rfl, rfl, rfl, rfl, rfl, rfl, rfl⟩

theorem symm (h : Alike s t) : Alike t s :=
  ⟨h.slots.symm, h.clock.symm, h.lags.symm, h.shell.symm, h.queue.symm, h.jobs.symm, h.runs.symm,
    h.timers.symm, h.handles.symm, h.spawned.symm, h.signalled.symm, h.reports.symm⟩

theorem trans (h : Alike s t) (h' : Alike t u) : Alike s u :=
  ⟨h.slots.trans h'.slots, h.clock.trans h'.clock, h.lags.trans h'.lags, h.shell.trans h'.shell,
    h.queue.trans h'.queue, h.jobs.trans h'.jobs, h.runs.trans h'.runs, h.timers.trans h'.timers,
    h.handles.trans h'.handles, h.spawned.trans h'.spawned, h.signalled.trans h'.signalled,
    h.reports.trans h'.reports⟩

/-! ## What can be read off alike states -/

/-- Alike states show the same moments, now and later. -/
theorem sameTime (h : Alike s t) : SameTime s t := ⟨h.clock.symm, h.lags.symm⟩

theorem dated (h : Alike s t) (dated : s.Dated) : t.Dated := dated.congr h.sameTime

/-- Alike states have the same line of jobs. -/
theorem sameLine (h : Alike s t) : SameLine t s := ⟨h.jobs, h.queue, h.slots⟩

/-- Two alike states have the same runs, hooks apart. -/
theorem run_cases (h : Alike s t) (run : Nat) :
    s.runs[run]? = none ∧ t.runs[run]? = none ∨
      ∃ r hooks, s.runs[run]? = some r ∧ t.runs[run]? = some { r with hooks } := by
  have hruns : (s.runs[run]?).map Run.unhooked = (t.runs[run]?).map Run.unhooked := by
    rw [← List.getElem?_map, ← List.getElem?_map, h.runs]
  cases hs : s.runs[run]? with
  | none =>
    rw [hs] at hruns
    exact Or.inl ⟨rfl, Option.map_eq_none_iff.mp hruns.symm⟩
  | some r =>
    rw [hs] at hruns
    obtain ⟨r', hr', heq⟩ := Option.map_eq_some_iff.mp hruns.symm
    refine Or.inr ⟨r, r'.hooks, rfl, hr'.trans (congrArg some ?_)⟩
    exact congrArg (fun bare : Run => { bare with hooks := r'.hooks }) heq

/-- The same runs have the same answers. -/
theorem answers (h : Alike s t) : s.runs.map (·.answer) = t.runs.map (·.answer) := by
  have hanswer : ∀ runs : List Run,
      runs.map (·.answer) = (runs.map Run.unhooked).map (·.answer) := fun runs => by
    rw [List.map_map]
    rfl
  rw [hanswer, h.runs, ← hanswer]

/-- The same runs are aborted. -/
theorem isAborted (h : Alike s t) (job : Job) : s.isAborted job = t.isAborted job := by
  unfold State.isAborted
  cases job.run? with
  | none => rfl
  | some run =>
    rw [Option.bind_some, Option.bind_some]
    rcases h.run_cases run with ⟨hs, ht⟩ | ⟨r, hooks, hs, ht⟩
    · rw [hs, ht]
    · rw [hs, ht]

theorem jobsOf (h : Alike s t) (run : Nat) : s.jobsOf run = t.jobsOf run := by
  unfold State.jobsOf
  rw [h.jobs]

/-- The same runs are complete. -/
theorem isComplete (h : Alike s t) (run : Nat) : s.isComplete run = t.isComplete run := by
  unfold State.isComplete
  rw [h.jobsOf]
  rcases h.run_cases run with ⟨hs, ht⟩ | ⟨r, hooks, hs, ht⟩
  · rw [hs, ht]
  · rw [hs, ht]
    rfl

/-- A task that ends now comes to the same outcome. -/
theorem outcomeOf (h : Alike s t) (job : Job) (times : Times) (ending : Ending) :
    s.outcomeOf job times ending = t.outcomeOf job times ending := by
  unfold State.outcomeOf
  rw [h.clock]

/-- A run that is concluded now has the same report. -/
theorem reportOf (h : Alike s t) (number : Nat) (run : Run) (hooks : Hooks) :
    s.reportOf number run = t.reportOf number { run with hooks } := by
  unfold State.reportOf outcomes
  rw [h.jobsOf, h.reports, h.slots, h.clock]

/-! ## Small changes -/

/-- A look at the clock of two alike states shows the same. -/
theorem look (h : Alike s t) : Alike s.look t.look := by
  have htime := h.sameTime.look
  rw [look_eq, look_eq t, htime.clock, htime.lags]
  exact { h with clock := rfl, lags := rfl }

theorem looks (h : Alike s t) (count : Nat) : Alike (s.looks count) (t.looks count) := by
  induction count generalizing s t with
  | zero => exact h
  | succ count ih => exact ih h.look

/-- Whatever has been told is nothing to them. -/
theorem told (h : Alike s t) (events events' : List Event) :
    Alike { s with events } { t with events := events' } := { h with }

/-- The same work is put in the queue. -/
theorem enqueue (h : Alike s t) (work : Work) : Alike (s.enqueue work) (t.enqueue work) :=
  { h with queue := congrArg (· ++ [work]) h.queue }

/-- The same job moves on. -/
theorem setPhase (h : Alike s t) (number : Nat) (phase : Phase) :
    Alike (s.setPhase number phase) (t.setPhase number phase) :=
  { h with jobs := congrArg (fun jobs => jobs.modify number fun j => { j with phase }) h.jobs }

/-- The same change is made to a run, whatever its hooks are. -/
theorem modifyRun (h : Alike s t) (run : Nat) {change change' : Run → Run}
    (same : ∀ r hooks, (change r).unhooked = (change' { r with hooks }).unhooked) :
    Alike (s.modifyRun run change) (t.modifyRun run change') := by
  refine { h with runs := List.ext_getElem? fun i => ?_ }
  change ((s.runs.modify run change).map _)[i]? = ((t.runs.modify run change').map _)[i]?
  rw [List.getElem?_map, List.getElem?_map, List.getElem?_modify, List.getElem?_modify]
  rcases h.run_cases i with ⟨hs, ht⟩ | ⟨r, hooks, hs, ht⟩
  · rw [hs, ht]
    rfl
  · rw [hs, ht]
    by_cases heq : run = i
    · simp only [if_pos heq]
      exact congrArg some (same r hooks)
    · simp only [if_neg heq]
      rfl

/-- Other hooks are given to a run. -/
theorem rehook (s : State) (run : Nat) (hooks : Hooks) :
    Alike (s.modifyRun run fun r => { r with hooks }) s := by
  have hsame : Alike (s.modifyRun run fun r => { r with hooks }) (s.modifyRun run id) :=
    (refl s).modifyRun run fun _ _ => rfl
  unfold State.modifyRun at hsame ⊢
  rwa [List.modify_id] at hsame

/-- The same timer is made: the clocks agree. -/
theorem addTimer (h : Alike s t) (delay : Number) (alarm : Alarm) :
    Alike (s.addTimer delay alarm) (t.addTimer delay alarm) :=
  { h with
    timers := congrArg₂ (fun timers (clock : Number) => timers ++ [Timer.mk (clock + delay) alarm])
      h.timers h.clock }

theorem giveHandle (h : Alike s t) (number : Nat) :
    Alike (s.giveHandle number) (t.giveHandle number) :=
  { h with handles := congrArg (· ++ [number]) h.handles }

/-- A job comes to the same result. -/
theorem leave (h : Alike s t) (number : Nat) (result : Result) :
    Alike (s.leave number result) (t.leave number result) :=
  (h.setPhase number _).enqueue _

/-- A body settles in the same way. -/
theorem settle (h : Alike s t) (number : Nat) (job : Job) (times : Times) (ending : Ending) :
    Alike (s.settle number job times ending) (t.settle number job times ending) := by
  unfold State.settle
  split
  · exact (h.setPhase number _).enqueue _
  · exact h.leave number _

/-- A body goes on. -/
theorem run (h : Alike s t) (number : Nat) (times : Times) :
    Alike (s.run number times) (t.run number times) :=
  h.setPhase number _

/-- A run keeps the same message. -/
theorem noteMessage (h : Alike s t) (run : Nat) (ending : Ending) :
    Alike (s.noteMessage run ending) (t.noteMessage run ending) :=
  h.modifyRun run fun _ _ => rfl

/-- A slot passes on to the same job. -/
theorem passOn (h : Alike s t) : Alike s.passOn t.passOn := by
  have hback : ∀ slots, Alike { s with slots } { t with slots } :=
    fun _ => { h with slots := rfl }
  unfold State.passOn
  rw [h.slots]
  rcases t.slots.giveBack with ⟨slots, _ | next⟩
  · exact hback slots
  · exact ((hback slots).setPhase next .granted).enqueue _

/-- A slot comes back at once. -/
theorem bounce (h : Alike s t) (number : Nat) (times : Times) (value : Value) :
    Alike (s.bounce number times value) (t.bounce number times value) :=
  (h.setPhase number _).passOn

/-! ## Stimuli -/

/-- A job gets a free slot or waits, as the slots are the same. -/
theorem submitJob (h : Alike s t) (job : Job) : Alike (s.submitJob job) (t.submitJob job) := by
  have hjoined : ∀ slots jobs, Alike { s with slots, jobs } { t with slots, jobs } :=
    fun _ _ => { h with slots := rfl, jobs := rfl }
  unfold State.submitJob
  rw [h.jobs, h.slots]
  dsimp only
  rcases t.slots.acquire t.jobs.length with ⟨slots, _ | _⟩
  · exact hjoined slots _
  · exact (hjoined slots _).enqueue _

/-- A run is submitted with other hooks: its jobs are the same, at the same moments. -/
theorem submit (h : Alike s t) (request : Request) (hooks : Hooks) :
    Alike (s.submit request) (t.submit { request with hooks }) := by
  have hnumber : s.runs.length = t.runs.length := by
    rw [← s.runs.length_map, h.runs, List.length_map]
  -- the hooks are the only part of a run in which the two may differ
  have hruns : (s.runs ++ [s.runFor request]).map Run.unhooked
      = (t.runs ++ [t.runFor { request with hooks }]).map Run.unhooked := by
    have hrun : (s.runFor request).unhooked = (t.runFor { request with hooks }).unhooked := by
      unfold runFor
      rw [h.look.clock]
      rfl
    rw [List.map_append, List.map_append, h.runs]
    exact congrArg (fun r => _ ++ [r]) hrun
  have hopened : Alike (s.opened request) (t.opened { request with hooks }) :=
    { h.looks (request.tasks.length + 1) with runs := hruns }
  have hjobs : s.newcomers (.settle request) = t.newcomers (.settle { request with hooks }) := by
    have hclock : ∀ place, (s.looks (place + 2)).clock = (t.looks (place + 2)).clock :=
      fun place => (h.looks (place + 2)).clock
    unfold newcomers nextJob jobOf
    simp only [hnumber, hclock]
  rw [submit_eq, submit_eq, hjobs, hnumber]
  -- a run without tasks is concluded, any other asks for slots
  split
  · exact hopened.enqueue _
  · exact List.foldl_rel hopened fun job _ _ _ hsame => hsame.submitJob job

/-- A body that is running ends. -/
theorem settleJob (h : Alike s t) (number : Nat) (ending : Ending) :
    Alike (s.settleJob number ending) (t.settleJob number ending) := by
  unfold State.settleJob
  rw [h.jobs]
  cases t.jobs[number]? with
  | none => exact h
  | some job =>
    dsimp only
    cases job.phase with
    | running times => exact h.settle number job times ending
    | waiting | granted | settled | leaving | finished => exact h

/-- A child is sent a signal: the shells agree on whether it heeds it. -/
theorem kill (h : Alike s t) (number : Nat) (line signal : String) :
    Alike (s.kill number line signal) (t.kill number line signal) := by
  have hsent : Alike { s with signalled := s.signalled ++ [{ job := number, signal }] }
      { t with signalled := t.signalled ++ [{ job := number, signal }] } :=
    { h with signalled := congrArg (· ++ [{ job := number, signal }]) h.signalled }
  have hchild : s.shell.child line = t.shell.child line := by rw [h.shell]
  unfold State.kill
  rw [hchild]
  dsimp only
  split
  · exact hsent
  · exact hsent.addTimer _ _

/-- One job hears of an abort. -/
theorem abortJob (h : Alike s t) (number : Nat) :
    Alike (s.abortJob number) (t.abortJob number) := by
  cases hj : t.jobs[number]? with
  | none =>
    unfold State.abortJob
    rw [h.jobs, hj]
    exact h
  | some job =>
    rw [abortJob_eq hj, abortJob_eq (s := s) (by rw [h.jobs]; exact hj)]
    cases job.phase with
    | running times =>
      -- a command is killed, a body that heeds aborts settles, and any other goes on
      cases job.body.line? with
      | some line => exact h.kill number line "SIGTERM"
      | none =>
        cases job.body.abortEnding? with
        | none => exact h
        | some ending => exact h.settle number job times ending
    | waiting | granted | settled | leaving | finished => exact h

/-- A run is aborted. -/
theorem abort (h : Alike s t) (run : Nat) : Alike (s.abort run) (t.abort run) := by
  unfold State.abort
  rw [h.jobsOf]
  rcases h.run_cases run with ⟨hs, ht⟩ | ⟨r, hooks, hs, ht⟩
  · rw [hs, ht]
    exact h
  · rw [hs, ht]
    dsimp only
    split
    · have hmarked : Alike (s.modifyRun run fun r => { r with signal := .aborted })
          (t.modifyRun run fun r => { r with signal := .aborted }) := h.modifyRun run fun _ _ => rfl
      exact List.foldl_rel hmarked fun number _ _ _ hsame => hsame.abortJob number
    · exact h

/-- A body is told to end: the same bodies can be told. -/
theorem tellBody (h : Alike s t) (number : Nat) (ending : Ending) :
    Alike (s.tellBody number ending) (t.tellBody number ending) := by
  have herased : Alike { s with handles := s.handles.erase number }
      { t with handles := t.handles.erase number } :=
    { h with handles := congrArg (·.erase number) h.handles }
  have hmem : number ∈ s.handles ↔ number ∈ t.handles := by rw [h.handles]
  unfold State.tellBody
  by_cases handle : number ∈ t.handles
  · rw [if_pos handle, if_pos (hmem.mpr handle)]
    exact herased.settleJob number ending
  · rw [if_neg handle, if_neg (mt hmem.mp handle)]
    exact h

/-- A child reports. -/
theorem childReports (h : Alike s t) (number : Nat) (report : ChildReport) :
    Alike (s.childReports number report) (t.childReports number report) := by
  unfold State.childReports
  rw [h.jobs]
  cases t.jobs[number]? with
  | none => exact h
  | some job =>
    dsimp only
    cases job.body with
    | command line quiet => exact h.settleJob number _
    | immediate | prompt | timed | manual => exact h

/-- An alarm goes off. -/
theorem sound (h : Alike s t) (alarm : Alarm) : Alike (s.sound alarm) (t.sound alarm) := by
  cases alarm with
  | settle number ending => exact h.settleJob number ending
  | child number report => exact h.childReports number report
  | abort run => exact h.abort run

/-- A timer fires: the clock moves to its time in both. -/
theorem fire (h : Alike s t) (place : Nat) : Alike (s.fire place) (t.fire place) := by
  unfold State.fire
  rw [h.timers]
  cases t.timers[place]? with
  | none => exact h
  | some timer =>
    have hfired : ∀ timers, Alike { s with clock := s.clock.max timer.due, timers }
        { t with clock := t.clock.max timer.due, timers } := fun _ =>
      { h with clock := congrArg (Number.max · timer.due) h.clock, timers := rfl }
    exact (hfired _).sound _

/-- **A stimulus arrives in two alike states**, and hooks are all that differs in it. -/
theorem receive (h : Alike s t) (stimulus : Stimulus) :
    Alike (s.receive stimulus) (t.receive stimulus.unhooked) := by
  cases stimulus with
  | settle request => exact h.submit request {}
  | call label body relayed =>
    change Alike (s.submitCall label body relayed) (t.submitCall label body relayed)
    unfold submitCall
    dsimp only
    rw [h.look.clock]
    exact h.look.submitJob _
  | finish number ending => exact h.tellBody number ending
  | abort run => exact h.abort run
  | report number report => exact h.childReports number report
  | setLevel level => exact { h with }
  | setClock clock => exact { h with clock := rfl }
  | setLags lags => exact { h with lags := rfl }
  | fire place => exact h.fire place

/-! ## Work -/

/-- A run hears of the result of a job. -/
theorem reportBack (h : Alike s t) (job : Job) (result : Result) :
    Alike (s.reportBack job result) (t.reportBack job result) := by
  have hblamed : Alike (s.blamed job result) (t.blamed job result) := by
    unfold blamed
    split
    · refine h.modifyRun _ fun r hooks => ?_
      cases hanswer : r.answer <;> simp [Run.unhooked, hanswer]
    · exact h
  -- whether the run is complete is not seen from its hooks
  have hclosing : (s.blamed job result).closing job = (t.blamed job result).closing job := by
    unfold closing
    cases job.run? with
    | none => rfl
    | some run =>
      dsimp only
      rw [hblamed.isComplete]
  rw [reportBack_eq, reportBack_eq, hclosing]
  exact { hblamed with queue := congrArg (· ++ _) hblamed.queue }

/-- A job gives its slot back. -/
theorem release (h : Alike s t) (number : Nat) : Alike (s.release number) (t.release number) := by
  unfold State.release
  rw [h.jobs]
  cases t.jobs[number]? with
  | none => exact h
  | some job =>
    dsimp only
    cases job.phase with
    | leaving result => exact (h.setPhase number _).passOn.reportBack job result
    | waiting | granted | running | settled | finished => exact h

/-- A run gets its report, or has its answer already. -/
theorem conclude (h : Alike s t) (number : Nat) :
    Alike (s.conclude number) (t.conclude number) := by
  unfold State.conclude
  rcases h.run_cases number with ⟨hs, ht⟩ | ⟨r, hooks, hs, ht⟩
  · rw [hs, ht]
    exact h
  · rw [hs, ht]
    dsimp only
    cases r.answer with
    | some answer => exact h
    | none =>
      -- the report is made of what the states have in common
      rw [h.look.reportOf number r hooks]
      exact { h.look.modifyRun number fun _ _ => rfl with
        reports := congrArg (· + 1) h.look.reports }

section Dated

variable (h : Alike s t) (dated : s.Dated)
include h dated

/-- The end of a body is noted: the lines about it are written, and leave nothing else behind. -/
theorem wrapUp (number : Nat) (job : Job) (times : Times) (ending : Ending) :
    Alike (s.wrapUp number job times ending) (t.wrapUp number job times ending) := by
  unfold State.wrapUp
  cases job.run? with
  | none => exact h.leave number _
  | some run =>
    obtain ⟨events, hs⟩ := wrapUpTask_of_dated dated number run job times ending
    obtain ⟨events', ht⟩ := wrapUpTask_of_dated (h.dated dated) number run job times ending
    simp only [hs, ht, h.look.outcomeOf]
    exact ((h.look.noteMessage run ending).told events events').leave number _

/-- A command is asked for, or skipped after an abort. -/
theorem enterCommand (number : Nat) (job : Job) (times : Times) (line : String) (quiet : Bool) :
    Alike (s.enterCommand number job times line quiet)
      (t.enterCommand number job times line quiet) := by
  have haborted := h.isAborted job
  cases hs : s.isAborted job with
  | true =>
    rw [hs] at haborted
    unfold State.enterCommand
    rw [if_pos hs, if_pos haborted.symm]
    exact h.settle number job times _
  | false =>
    rw [hs] at haborted
    obtain ⟨events, hasked⟩ := enterCommand_of_dated dated number times line quiet hs
    obtain ⟨events', hasked'⟩ :=
      enterCommand_of_dated (h.dated dated) number times line quiet haborted.symm
    -- the line about the command is all that the two states could differ in
    have hspawned : Alike
        { s with events, spawned := s.spawned ++ [{ job := number, line, quiet }] }
        { t with events := events', spawned := t.spawned ++ [{ job := number, line, quiet }] } :=
      { h with spawned := congrArg (· ++ [_]) h.spawned }
    have hchild : s.shell.child line = t.shell.child line := by rw [h.shell]
    rw [hasked, hasked', hchild]
    cases (t.shell.child line).spawnError with
    | some message => exact hspawned.settle number job times _
    | none => exact (hspawned.run number times).addTimer _ _

/-- A body is entered, and whether its run is aborted is known. -/
theorem enterBody (number : Nat) (job : Job) (times : Times) (aborted : Bool) (body : Body) :
    Alike (s.enterBody number job times aborted body)
      (t.enterBody number job times aborted body) := by
  cases body with
  | command line quiet => exact h.enterCommand dated number job times line quiet
  | prompt ending => exact h.settle number job times ending
  -- a direct call whose body throws at once leaves in the same step
  | immediate ending =>
    cases ending with
    | returned value => exact h.settle number job times _
    | thrown value =>
      change Alike (if job.relays then _ else _) (if job.relays then _ else _)
      split
      · exact h.wrapUp dated number job times _
      · exact h.bounce number times value
  -- an aborted run may end the body before its timer is set
  | timed delay ending onAbort =>
    have hlasts := (h.run number times).addTimer delay (.settle number ending)
    cases aborted with
    | false => exact hlasts
    | true =>
      cases onAbort with
      | none => exact hlasts
      | some early => exact h.settle number job times early
  | manual onAbort =>
    have hlasts := (h.run number times).giveHandle number
    cases aborted with
    | false => exact hlasts
    | true =>
      cases onAbort with
      | none => exact hlasts
      | some early => exact h.settle number job times early

/-- The body of a job is entered. -/
theorem enter (number : Nat) (job : Job) (times : Times) :
    Alike (s.enter number job times) (t.enter number job times) := by
  have hentered : Alike (s.emit (s.entry number job)) (t.emit (t.entry number job)) := h.told _ _
  rw [enter_eq, enter_eq, h.isAborted]
  exact hentered.enterBody (dated.congr ⟨rfl, rfl⟩) number job times _ _

/-- A granted job starts: the line about its waiting is written, and its hook may do what it
likes. -/
theorem start (number : Nat) : Alike (s.start number) (t.start number) := by
  have hjobs : s.jobs[number]? = t.jobs[number]? := by rw [h.jobs]
  cases hj : t.jobs[number]? with
  | none =>
    rw [hj] at hjobs
    unfold State.start
    rw [hj, hjobs]
    exact h
  | some job =>
    rw [hj] at hjobs
    cases hphase : job.phase with
    | granted =>
      -- only the lines and the hooks told differ, and nothing is decided by them
      obtain ⟨events, hs⟩ := start_of_dated dated hjobs hphase
      obtain ⟨events', ht⟩ := start_of_dated (h.dated dated) hj hphase
      have hlooked : Alike (s.looked job) (t.looked job) := by
        unfold looked
        split
        · exact h.look.look
        · exact h.look
      have htimes : s.timesOf job = t.timesOf job := by
        unfold timesOf
        rw [h.look.clock, hlooked.clock]
      rw [hs, ht, htimes]
      exact (hlooked.told events events').enter ((dated.looked job).congr ⟨rfl, rfl⟩) number job _
    | waiting | running | settled | leaving | finished =>
      unfold State.start
      simp only [hj, hjobs, hphase]
      exact h

/-- A settled job comes to its result. -/
theorem finish (number : Nat) : Alike (s.finish number) (t.finish number) := by
  unfold State.finish
  rw [h.jobs]
  cases t.jobs[number]? with
  | none => exact h
  | some job =>
    dsimp only
    cases job.phase with
    | settled times ending => exact h.wrapUp dated number job times ending
    | waiting | granted | running | leaving | finished => exact h

/-- **A piece of work is done in two alike states**, while the clock shows a date. -/
theorem tick : Alike s.tick t.tick := by
  cases hqueue : t.queue with
  | nil =>
    rw [tick_of_quiet hqueue, tick_of_quiet (h.queue.trans hqueue)]
    exact h
  | cons work rest =>
    have hpopped : Alike { s with queue := rest } { t with queue := rest } :=
      { h with queue := rfl }
    rw [tick_of_queue hqueue, tick_of_queue (h.queue.trans hqueue)]
    cases work with
    | start number => exact hpopped.start (dated.congr ⟨rfl, rfl⟩) number
    | finish number => exact hpopped.finish (dated.congr ⟨rfl, rfl⟩) number
    | release number => exact hpopped.release number
    | conclude run => exact hpopped.conclude run

end Dated

end Alike

end State

end BoundedJobs
