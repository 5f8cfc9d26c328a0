import BoundedJobs.Proofs.Runner.Turn
import Mathlib.Logic.Relation

/-!
# What a stimulus does

A stimulus reaches a runner whatever its queue holds, and is made of a few elementary steps.

* `State.Nudge` — what a stimulus other than a submission does: a body that is running settles, for
  a `State.Cause`, or something changes that is beside the jobs altogether (`State.Aside`);
* `State.Arrival` — besides that, what a submission does: a run is opened, a job asks for a slot, or
  an empty run is ready to be concluded. `receive_arrivals` says that every stimulus is a sequence
  of such steps, so an invariant that each of them keeps is kept by every stimulus;
* `State.newcomers` — the jobs that a stimulus submits. They come behind all others
  (`receive_unphased`), and nothing else changes more of a job than its phase.

No stimulus starts a body, notes an end or gives a slot back: that is left to the work in the queue.
-/

namespace BoundedJobs

/-- The data of a run but for its signal. -/
def Run.unsigned (run : Run) : Run := { run with signal := .none }

/-- The data of a job but for its phase. -/
def Job.unphased (job : Job) : Job := { job with phase := .waiting }

namespace State

open Relation

variable {s t u : State}

/-- `t` is `s` after changes beside its jobs, slots and queue: the clock, the level and the signals
of runs may differ, timers and handles may have been used up, and a child may have been sent a
signal. -/
structure Aside (s t : State) : Prop where
  jobs : t.jobs = s.jobs
  queue : t.queue = s.queue
  slots : t.slots = s.slots
  runs : t.runs.map Run.unsigned = s.runs.map Run.unsigned
  story : t.story = s.story
  timers : ∀ timer ∈ t.timers, timer ∈ s.timers ∨ ∃ job report, timer.alarm = .child job report
  handles : ∀ number ∈ t.handles, number ∈ s.handles

/-- Why the body of a job settles with an ending when a stimulus arrives at `origin`. -/
inductive Cause (origin : State) (number : Nat) (body : Body) : Ending → Prop
  /-- Its timer fires. -/
  | alarm {timer : Timer} {ending : Ending} (mem : timer ∈ origin.timers)
      (alarm : timer.alarm = .settle number ending) : Cause origin number body ending
  /-- It is told to end. -/
  | told {ending : Ending} (mem : number ∈ origin.handles) : Cause origin number body ending
  /-- Its run is aborted. -/
  | early {ending : Ending} (early : body.abortEnding? = some ending) :
      Cause origin number body ending
  /-- Its child reports. -/
  | child {line : String} {quiet : Bool} {report : ChildReport}
      (command : body = .command line quiet) :
      Cause origin number body (report.ending line)

/-- One elementary step of a stimulus that is no submission and arrives at `origin`. -/
inductive Nudge (origin : State) : State → State → Prop
  | aside {s t : State} (h : Aside s t) : Nudge origin s t
  /-- A body that is running settles. -/
  | settled {s : State} {number : Nat} {job : Job} {times : Times} {ending : Ending}
      (job_eq : s.jobs[number]? = some job) (running : job.phase = .running times)
      (cause : Cause origin number job.body ending) :
      Nudge origin s (s.place number (job.ended times ending.effective))

/-- One elementary step of a stimulus that arrives at `origin`. -/
inductive Arrival (origin : State) : State → State → Prop
  | nudged {s t : State} (h : Nudge origin s t) : Arrival origin s t
  /-- A run is opened. -/
  | opened {s : State} {run : Run} (runs : s.runs.length = origin.runs.length)
      (failures : run.failures = []) (answer : run.answer = none) :
      Arrival origin s { s with runs := s.runs ++ [run] }
  /-- A job of that run, or a direct call, asks for a slot. -/
  | submitted {s : State} {job : Job}
      (run : ∀ number, job.run? = some number → number = origin.runs.length) :
      Arrival origin s (s.submitJob job)
  /-- That run has no tasks. -/
  | concluding {s : State} : Arrival origin s (s.enqueue (.conclude origin.runs.length))

variable {origin : State}

/-! ## Ends from outside -/

theorem settleJob_eq {number : Nat} {job : Job} {times : Times} (hj : s.jobs[number]? = some job)
    (running : job.phase = .running times) (ending : Ending) :
    s.settleJob number ending = s.place number (job.ended times ending.effective) := by
  unfold settleJob
  simp only [hj, running, settle_eq_place]

theorem settleJob_nudges {number : Nat} {ending : Ending}
    (cause : ∀ job, s.jobs[number]? = some job → Cause origin number job.body ending) :
    ReflTransGen (Nudge origin) s (s.settleJob number ending) := by
  unfold settleJob
  simp only [settle_eq_place]
  split
  · exact .refl
  · next job hj =>
    split
    · next times hp => exact .single (.settled hj hp (cause job hj))
    · exact .refl

theorem childReports_nudges (s : State) (number : Nat) (report : ChildReport) :
    ReflTransGen (Nudge origin) s (s.childReports number report) := by
  unfold childReports
  split
  · exact .refl
  · next job hj =>
    split
    · next line quiet hb =>
      refine settleJob_nudges fun other hother => ?_
      obtain rfl := Option.some.inj (hj.symm.trans hother)
      exact .child hb
    · exact .refl

theorem looks_aside (s : State) (count : Nat) : Aside s (s.looks count) := by
  rw [looks_eq]
  exact ⟨rfl, rfl, rfl, rfl, rfl, fun _ h => Or.inl h, fun _ h => h⟩

theorem kill_aside (s : State) (number : Nat) (line signal : String) :
    Aside s (s.kill number line signal) := by
  unfold kill
  simp only
  split
  · exact ⟨rfl, rfl, rfl, rfl, rfl, fun _ h => Or.inl h, fun _ h => h⟩
  · refine ⟨rfl, rfl, rfl, rfl, rfl, fun timer h => ?_, fun _ h => h⟩
    -- the only new timer is that of the child's exit
    rcases List.mem_append.mp h with h | h
    · exact Or.inl h
    · rw [List.mem_singleton.mp h]
      exact Or.inr ⟨number, _, rfl⟩

theorem abortJob_nudges (s : State) (number : Nat) :
    ReflTransGen (Nudge origin) s (s.abortJob number) := by
  unfold abortJob
  simp only [settle_eq_place]
  split
  · exact .refl
  · next job hj =>
    split
    · exact .single (.aside (kill_aside s number _ _))
    · next times _ hp _ =>
      split
      · next ending he => exact .single (.settled hj hp (.early he))
      · exact .refl
    · exact .refl

theorem foldl_abortJob_nudges (numbers : List Nat) (s : State) :
    ReflTransGen (Nudge origin) s (numbers.foldl abortJob s) := by
  induction numbers generalizing s with
  | nil => exact .refl
  | cons number numbers ih => exact (abortJob_nudges s number).trans (ih (s.abortJob number))

theorem abort_nudges (s : State) (run : Nat) :
    ReflTransGen (Nudge origin) s (s.abort run) := by
  unfold abort
  split
  · split
    · have hmarked : Aside s (s.modifyRun run fun r => { r with signal := .aborted }) := by
        refine ⟨rfl, rfl, rfl, ?_, rfl, fun _ h => Or.inl h, fun _ h => h⟩
        -- the signal is all that changes in the data of the run
        refine List.ext_getElem? fun i => ?_
        simp only [modifyRun, List.getElem?_map, List.getElem?_modify]
        cases s.runs[i]? <;> split <;> rfl
      exact .head (.aside hmarked) (foldl_abortJob_nudges _ _)
    · exact .refl
  · exact .refl

theorem tellBody_nudges (s : State) (number : Nat) (ending : Ending) :
    ReflTransGen (Nudge s) s (s.tellBody number ending) := by
  unfold tellBody
  split
  · next hmem =>
    -- the handle is used up first, and then the body settles
    have htold : Aside s { s with handles := s.handles.erase number } :=
      ⟨rfl, rfl, rfl, rfl, rfl, fun _ h => Or.inl h, fun _ h => List.mem_of_mem_erase h⟩
    exact .head (.aside htold) (settleJob_nudges fun _ _ => .told hmem)
  · exact .refl

theorem fire_nudges (s : State) (place : Nat) :
    ReflTransGen (Nudge s) s (s.fire place) := by
  unfold fire
  split
  · exact .refl
  · next timer ht =>
    have hmem : timer ∈ s.timers := List.mem_of_getElem? ht
    -- the timer is gone by the time its alarm goes off, so it is the origin that has it
    have hfired : Aside s
        { s with clock := s.clock.max timer.due, timers := s.timers.eraseIdx place } :=
      ⟨rfl, rfl, rfl, rfl, rfl, fun _ h => Or.inl (List.mem_of_mem_eraseIdx h), fun _ h => h⟩
    refine .head (.aside hfired) ?_
    cases halarm : timer.alarm with
    | settle job ending => exact settleJob_nudges fun _ _ => .alarm hmem halarm
    | child job report => exact childReports_nudges _ job report
    | abort run => exact abort_nudges _ run

/-- The job of a task of the next run: the run looks at the clock when it is opened, and once more
for each of its tasks. -/
def nextJob (s : State) (request : Request) (task : Task) (place : Nat) : Job :=
  (s.looks (place + 2)).jobOf request s.runs.length task place

/-- The jobs that a stimulus submits. -/
def newcomers (s : State) : Stimulus → List Job
  | .settle request => request.tasks.zipIdx.map fun (task, place) => s.nextJob request task place
  | .call label body relayed =>
    [{ owner := .caller relayed, label, place := 0, name := label, body, submitted := s.look.clock,
       phase := .waiting }]
  | _ => []

/-! ## Submissions -/

theorem length_newcomers (s : State) (request : Request) :
    (s.newcomers (.settle request)).length = request.tasks.length := by
  unfold newcomers
  rw [List.length_map, List.length_zipIdx]

theorem getElem?_newcomers (s : State) {request : Request} {place : Nat} {task : Task}
    (h : request.tasks[place]? = some task) :
    (s.newcomers (.settle request))[place]? = some (s.nextJob request task place) := by
  unfold newcomers
  dsimp only
  rw [List.getElem?_map, List.getElem?_zipIdx, h, Nat.zero_add]
  rfl

/-- The run that a request opens. -/
def runFor (s : State) (request : Request) : Run :=
  { label := request.label, strict := request.strict, hooks := request.hooks,
    signal := request.signal, startedAt := s.look.clock }

/-- The state in which a run has been opened, at the moment of the last look of its submission. -/
def opened (s : State) (request : Request) : State :=
  { s.looks (request.tasks.length + 1) with runs := s.runs ++ [s.runFor request] }

theorem opened_eq (s : State) (request : Request) :
    s.opened request =
      { s with clock := (s.looks (request.tasks.length + 1)).clock
               lags := (s.looks (request.tasks.length + 1)).lags
               runs := s.runs ++ [s.runFor request] } := by
  unfold opened
  rw [looks_eq]

/-- A submission looks at nothing that a look at the clock changes. -/
theorem submitJob_look (s : State) (job : Job) : (s.submitJob job).look = s.look.submitJob job := by
  unfold submitJob
  simp only [look_jobs, look_slots]
  split
  · unfold enqueue look
    dsimp only
    split <;> rfl
  · unfold look
    dsimp only
    split <;> rfl

theorem submitJob_looks (s : State) (job : Job) (count : Nat) :
    (s.submitJob job).looks count = (s.looks count).submitJob job := by
  induction count generalizing s with
  | zero => rfl
  | succ count ih => rw [looks_succ, looks_succ, submitJob_look, ih]

theorem submitJob_clock (s : State) (job : Job) : (s.submitJob job).clock = s.clock := by
  unfold submitJob
  dsimp only
  split <;> rfl

theorem jobOf_congr {s t : State} (clock : t.clock = s.clock) (request : Request) (run : Nat)
    (task : Task) (place : Nat) :
    t.jobOf request run task place = s.jobOf request run task place := by
  unfold jobOf
  rw [clock]

/-- The looks of a submission do not depend on the jobs that have been submitted on the way. -/
theorem foldl_submitTask (request : Request) (run : Nat) (tasks : List Task) (s : State)
    (first : Nat) :
    (tasks.zipIdx first).foldl (submitTask request run) s =
      (tasks.zipIdx.map fun entry =>
        (s.looks (entry.2 + 1)).jobOf request run entry.1 (first + entry.2)).foldl submitJob
          (s.looks tasks.length) := by
  -- on the tasks, with the state and the first place as they go on
  induction tasks generalizing s first with
  | nil => rfl
  | cons task tasks ih =>
    rw [List.zipIdx_cons, List.foldl_cons, ih, List.zipIdx_cons', List.map_cons, List.foldl_cons,
      List.map_map]
    unfold submitTask
    dsimp only
    rw [submitJob_looks, List.length_cons, looks_succ]
    congr 1
    refine List.map_congr_left fun entry _ => ?_
    -- the look for a later task reads the clock that is left by the looks before it
    have hclock : ((s.look.submitJob (s.look.jobOf request run task first)).looks
        (entry.2 + 1)).clock = (s.looks (entry.2 + 1 + 1)).clock := by
      rw [submitJob_looks, submitJob_clock]
      rfl
    rw [jobOf_congr hclock]
    simp only [Function.comp_apply, Prod.map_fst, Prod.map_snd, id_eq]
    rw [Nat.add_right_comm first 1, Nat.add_assoc first]

theorem submit_eq (s : State) (request : Request) :
    s.submit request =
      if (s.newcomers (.settle request)).isEmpty then
        (s.opened request).enqueue (.conclude s.runs.length)
      else (s.newcomers (.settle request)).foldl submitJob (s.opened request) := by
  have hempty : (s.newcomers (.settle request)).isEmpty = request.tasks.isEmpty := by
    rw [Bool.eq_iff_iff, List.isEmpty_iff_length_eq_zero, List.isEmpty_iff_length_eq_zero,
      length_newcomers]
  -- the state in which the run has just been opened, before any of its tasks is looked at
  have hopened : { s.look with runs := s.look.runs ++ [s.runFor request] } =
      { s.look with runs := s.runs ++ [s.runFor request] } := by
    rw [look_runs]
  generalize htasks : { s.look with runs := s.runs ++ [s.runFor request] } = first at hopened
  have hfirst : ∀ count, SameTime (s.looks (count + 1)) (first.looks count) := by
    have htime : SameTime s.look first := htasks ▸ ⟨rfl, rfl⟩
    exact fun count => htime.looks count
  have hlast : first.looks request.tasks.length = s.opened request := by
    have htime := hfirst request.tasks.length
    rw [looks_eq, opened_eq, htime.clock, htime.lags, ← htasks, look_eq]
  unfold submit
  change (if request.tasks.isEmpty then
      ({ s.look with runs := s.look.runs ++ [s.runFor request] } : State).enqueue _
    else request.tasks.zipIdx.foldl (submitTask request s.runs.length)
      { s.look with runs := s.look.runs ++ [s.runFor request] }) = _
  rw [hopened, hempty]
  split
  · next hnone =>
    rw [← hlast, List.isEmpty_iff.mp hnone]
    rfl
  · rw [foldl_submitTask, hlast]
    congr 1
    refine List.map_congr_left fun entry _ => ?_
    rw [jobOf_congr (hfirst _).clock, Nat.zero_add]
    rfl

theorem submit_arrivals (s : State) (request : Request) :
    ReflTransGen (Arrival s) s (s.submit request) := by
  have hlooked : Arrival s s (s.looks (request.tasks.length + 1)) :=
    .nudged (.aside (looks_aside s _))
  have hopened : Arrival s (s.looks (request.tasks.length + 1)) (s.opened request) := by
    have hruns : (s.looks (request.tasks.length + 1)).runs = s.runs := by rw [looks_eq]
    unfold opened
    rw [← hruns]
    exact .opened (congrArg List.length hruns) rfl rfl
  rw [submit_eq]
  split
  · exact .head hlooked (.head hopened (.single .concluding))
  · refine .head hlooked (.head hopened ?_)
    have hjobs : ∀ job ∈ s.newcomers (.settle request), ∀ number, job.run? = some number →
        number = s.runs.length := by
      intro job hjob number hnumber
      obtain ⟨⟨task, place⟩, -, rfl⟩ := List.mem_map.mp hjob
      exact (Option.some.inj hnumber).symm
    -- from here on only the list of jobs matters, and its head is submitted first
    generalize s.opened request = t
    generalize s.newcomers (.settle request) = jobs at hjobs
    induction jobs generalizing t with
    | nil => exact .refl
    | cons job jobs ih =>
      exact .head (.submitted (hjobs job List.mem_cons_self))
        (ih (t.submitJob job) fun j hj => hjobs j (List.mem_cons_of_mem job hj))

/-! ## Stimuli -/

theorem receive_nudges (s : State) {stimulus : Stimulus}
    (settle : ∀ request, stimulus ≠ .settle request)
    (call : ∀ label body relayed, stimulus ≠ .call label body relayed) :
    ReflTransGen (Nudge s) s (s.receive stimulus) := by
  cases stimulus with
  | settle request => exact absurd rfl (settle request)
  | call label body relayed => exact absurd rfl (call label body relayed)
  | finish job ending => exact tellBody_nudges s job ending
  | abort run => exact abort_nudges s run
  | report job report => exact childReports_nudges s job report
  | setLevel level =>
    exact .single (.aside ⟨rfl, rfl, rfl, rfl, rfl, fun _ h => Or.inl h, fun _ h => h⟩)
  | setClock clock =>
    exact .single (.aside ⟨rfl, rfl, rfl, rfl, rfl, fun _ h => Or.inl h, fun _ h => h⟩)
  | setLags lags =>
    exact .single (.aside ⟨rfl, rfl, rfl, rfl, rfl, fun _ h => Or.inl h, fun _ h => h⟩)
  | fire place => exact fire_nudges s place

/-- **A stimulus is a sequence of elementary steps.** -/
theorem receive_arrivals (s : State) (stimulus : Stimulus) :
    ReflTransGen (Arrival s) s (s.receive stimulus) := by
  cases hs : stimulus with
  | settle request => exact submit_arrivals s request
  | call label body relayed =>
    -- a call looks at the clock once
    exact .head (.nudged (.aside (looks_aside s 1)))
      (.single (.submitted (fun number h => nomatch h)))
  -- whatever submits nothing is made of nudges
  | finish | abort | report | setLevel | setClock | setLags | fire =>
    refine ReflTransGen.mono (fun _ _ => .nudged) _ _ (receive_nudges s ?_ ?_)
    · simp
    · simp

/-- A property that every elementary step keeps is kept by a stimulus. -/
theorem receive_induction {P : State → Prop} (step : ∀ t u, Arrival s t u → P t → P u) (h : P s)
    (stimulus : Stimulus) : P (s.receive stimulus) := by
  have harrivals := receive_arrivals s stimulus
  generalize s.receive stimulus = v at harrivals
  induction harrivals with
  | refl => exact h
  | tail _ hstep ih => exact step _ _ hstep ih

/-! ## Conclusions in the queue -/

/-- The work of a job concludes no run. -/
theorem conclude_of_place {number run : Nat} {phase : Phase}
    (h : .conclude run ∈ (s.place number phase).queue) : .conclude run ∈ s.queue := by
  rcases List.mem_append.mp h with hmem | hmem
  · exact hmem
  · -- the work of a phase is never a conclusion
    cases phase <;> simp [Phase.work?] at hmem

theorem conclude_of_submitJob {run : Nat} {job : Job}
    (h : .conclude run ∈ (s.submitJob job).queue) : .conclude run ∈ s.queue := by
  unfold submitJob at h
  simp only at h
  split at h
  · rcases List.mem_append.mp h with hmem | hmem
    · exact hmem
    · exact absurd (List.mem_singleton.mp hmem) (by simp)
  · exact h

theorem conclude_of_nudges {run : Nat} (h : ReflTransGen (Nudge origin) s t)
    (mem : .conclude run ∈ t.queue) : .conclude run ∈ s.queue := by
  induction h with
  | refl => exact mem
  | tail _ hstep ih =>
    cases hstep with
    | aside ha => exact ih (ha.queue ▸ mem)
    | settled => exact ih (conclude_of_place mem)

/-- A stimulus leads to the conclusion of no run but one without tasks that it opens. -/
theorem conclude_of_receive {run : Nat} {stimulus : Stimulus}
    (h : .conclude run ∈ (s.receive stimulus).queue) :
    .conclude run ∈ s.queue ∨
      run = s.runs.length ∧ ∃ request, stimulus = .settle request ∧ request.tasks = [] := by
  cases hs : stimulus with
  | settle request =>
    subst hs
    change .conclude run ∈ (s.submit request).queue at h
    rw [submit_eq] at h
    split at h
    · next hempty =>
      rw [opened_eq] at h
      refine (List.mem_append.mp h).imp_right fun hnew => ?_
      refine ⟨Work.conclude.inj (List.mem_singleton.mp hnew), request, rfl, ?_⟩
      unfold newcomers at hempty
      simpa using hempty
    · -- the jobs only bring their starts
      left
      generalize hopened : s.opened request = t at h
      have hqueue : t.queue = s.queue := by rw [← hopened, opened_eq]
      rw [← hqueue]
      clear hopened hqueue
      generalize s.newcomers (.settle request) = jobs at h
      induction jobs generalizing t with
      | nil => exact h
      | cons job jobs ih => exact conclude_of_submitJob (ih (t.submitJob job) h)
  | call label body relayed =>
    subst hs
    have hmem := conclude_of_submitJob h
    rw [look_queue] at hmem
    exact Or.inl hmem
  | finish | abort | report | setLevel | setClock | setLags | fire =>
    subst hs
    exact Or.inl (conclude_of_nudges (receive_nudges s (by simp) (by simp)) h)

/-! ## What observers are told -/

theorem Nudge.story (h : Nudge origin s t) : t.story = s.story := by
  cases h with
  | aside ha => exact ha.story
  | settled => rfl

theorem submitJob_story (s : State) (job : Job) : (s.submitJob job).story = s.story := by
  unfold submitJob
  simp only
  split <;> rfl

/-- Nothing is told to observers when a stimulus arrives. -/
theorem receive_story (s : State) (stimulus : Stimulus) :
    (s.receive stimulus).story = s.story := by
  refine receive_induction (P := fun t => t.story = s.story) ?_ rfl stimulus
  intro t u step ht
  rw [← ht]
  cases step with
  | nudged nudge => exact nudge.story
  | opened | concluding => rfl
  | submitted => exact submitJob_story t _

/-! ## Who the jobs are -/

theorem place_unphased (s : State) (number : Nat) (phase : Phase) :
    (s.place number phase).jobs.map Job.unphased = s.jobs.map Job.unphased := by
  change (s.jobs.modify number fun j => { j with phase }).map Job.unphased = _
  refine List.ext_getElem? fun i => ?_
  rw [List.getElem?_map, List.getElem?_map, List.getElem?_modify]
  -- only the phase of the job at the number differs, and that is left out
  cases s.jobs[i]? <;> split <;> rfl

theorem Nudge.unphased (h : Nudge origin s t) :
    t.jobs.map Job.unphased = s.jobs.map Job.unphased := by
  cases h with
  | aside ha => rw [ha.jobs]
  | settled => exact place_unphased _ _ _

theorem nudges_unphased (h : ReflTransGen (Nudge origin) s t) :
    t.jobs.map Job.unphased = s.jobs.map Job.unphased := by
  induction h with
  | refl => rfl
  | tail _ hstep ih => exact hstep.unphased.trans ih

/-- A job that asks for a slot comes behind all others, and is granted one or waits. -/
theorem submitJob_jobs (s : State) (job : Job) :
    ∃ phase, (s.submitJob job).jobs = s.jobs ++ [{ job with phase }] ∧
      (phase = .granted ∨ phase = .waiting) := by
  unfold submitJob
  simp only
  split
  · exact ⟨.granted, rfl, Or.inl rfl⟩
  · exact ⟨.waiting, rfl, Or.inr rfl⟩

theorem submitJob_unphased (s : State) (job : Job) :
    (s.submitJob job).jobs.map Job.unphased = s.jobs.map Job.unphased ++ [job.unphased] := by
  obtain ⟨phase, hjobs, -⟩ := submitJob_jobs s job
  rw [hjobs]
  exact List.map_append

theorem foldl_submitJob_unphased (jobs : List Job) (s : State) :
    (jobs.foldl submitJob s).jobs.map Job.unphased
      = s.jobs.map Job.unphased ++ jobs.map Job.unphased := by
  induction jobs generalizing s with
  | nil => exact (List.append_nil _).symm
  | cons job jobs ih =>
    rw [List.foldl_cons, ih, submitJob_unphased, List.append_assoc]
    rfl

theorem newcomers_unphased (s : State) (stimulus : Stimulus) :
    (s.newcomers stimulus).map Job.unphased = s.newcomers stimulus := by
  cases stimulus with
  | settle request => exact List.map_map.trans rfl
  | call | finish | abort | report | setLevel | setClock | setLags | fire => rfl

/-- **A stimulus changes the jobs there are only by those it submits**, which come behind all
others. -/
theorem receive_unphased (s : State) (stimulus : Stimulus) :
    (s.receive stimulus).jobs.map Job.unphased
      = s.jobs.map Job.unphased ++ s.newcomers stimulus := by
  cases hs : stimulus with
  | settle request =>
    change (s.submit request).jobs.map Job.unphased = _
    rw [submit_eq]
    split
    · next hempty =>
      rw [List.isEmpty_iff.mp hempty, List.append_nil, opened_eq]
      rfl
    · rw [foldl_submitJob_unphased, newcomers_unphased, opened_eq]
  | call label body relayed =>
    refine (submitJob_unphased s.look _).trans ?_
    rw [look_jobs]
    rfl
  | finish | abort | report | setLevel | setClock | setLags | fire =>
    refine (nudges_unphased (receive_nudges s ?_ ?_)).trans (List.append_nil _).symm
    · simp
    · simp

end State

end BoundedJobs
