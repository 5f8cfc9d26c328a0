import BoundedJobs.Proofs.Runner.Endings
import BoundedJobs.Proofs.Runner.Exits

/-!
# What a move means for one run

Many runs and calls share a runner, and most of what happens has nothing to do with a given run.
`Crew.Effect` lists what a move can mean for it: nothing at all, the end of one of its jobs is noted
or comes to a crash, one of its jobs gives its slot back, or the run is concluded.
`Crew.receive_effect` and `Crew.ticked_effect` say that there is nothing else.

* `State.Settles` — the body of a job settles with an ending;
* `Outcome.Tells` — what the outcome of a task says about the ending of its body.
-/

namespace BoundedJobs

/-- What a body returned or threw. -/
def Ending.value : Ending → Value
  | returned value | thrown value => value

/-- Whether a body returned an error or threw. -/
def Ending.fails : Ending → Bool
  | returned value => value.isFault
  | thrown _ => true

theorem Ending.failure?_eq (ending : Ending) :
    ending.failure? = if ending.fails then some ending.value.failureText else none := by
  cases ending <;> rfl

/-- An outcome tells how a task has ended: it has the name of the task, or else that of its place,
and it has failed with the text of the failure exactly if the body returned an error or threw. -/
structure Outcome.Tells (outcome : Outcome) (task : Task) (place : Nat) (ending : Ending) :
    Prop where
  name : outcome.name = task.name.getD ("task-" ++ toString (place + 1))
  status : outcome.status = if ending.fails then .failed else .ok
  error : outcome.error = if ending.fails then some ending.value.failureText else none

/-- The body of a job settles with an ending: it has settled already, or it is about to be entered
and throws at once. -/
def State.Settles (s : State) (number : Nat) (ending : Ending) : Prop :=
  ∃ job, s.jobs[number]? = some job ∧
    ((∃ times, job.phase = .settled times ending) ∨
      job.phase = .granted ∧
        ∃ value, job.body = .immediate (.thrown value) ∧ ending = .thrown value)

namespace Crew

open State

variable {c : Crew} {request : Request} {s t mid origin : State} {number : Nat} {job : Job}
  {capacity begun admitted : Nat}

/-- The answer of the run, once it has one. -/
def answer? (c : Crew) (s : State) : Option (Except Fault Report) :=
  (s.runs[c.run]?).bind (·.answer)

/-- A report that is read off an answer is that answer. -/
theorem eq_ok_of_toOption {answer : Option (Except Fault Report)} {report : Report}
    (h : answer.bind (·.toOption) = some report) : answer = some (.ok report) := by
  obtain ⟨result, hresult, hok⟩ := Option.bind_eq_some_iff.mp h
  cases result with
  | error fault => exact absurd hok (by simp [Except.toOption])
  | ok own => rw [hresult, Option.some.inj hok]

/-- The messages that the run has kept. -/
def failures? (c : Crew) (s : State) : Option (List String) := (s.runs[c.run]?).map (·.failures)

/-- The jobs of the run whose ends were told to its hook, in the order in which that happened. -/
def farewells (c : Crew) (s : State) : List Nat := s.farewells.filter (· ∈ c.jobs)

/-- All jobs of the run have given their slots back. -/
def Over (c : Crew) (s : State) : Prop :=
  ∀ number ∈ c.jobs, ∃ result, s.exit? number = some (result, true)

/-- What a move can mean for a run. -/
inductive Effect (c : Crew) (request : Request) (s : State) : State → Prop
  /-- Nothing that the run can see has changed. -/
  | still {t : State} (exits : ∀ i ∈ c.jobs, t.exit? i = s.exit? i)
      (run : (t.runs[c.run]?).map Run.unsigned = (s.runs[c.run]?).map Run.unsigned)
      (farewells : c.farewells t = c.farewells s)
      (conclude : .conclude c.run ∈ t.queue → .conclude c.run ∈ s.queue) : Effect c request s t
  /-- The end of a task is noted. -/
  | noted {t : State} {place : Nat} {task : Task} {ending : Ending} {outcome : Outcome}
      (mem : c.first + place ∈ c.jobs) (task_eq : request.tasks[place]? = some task)
      (before : s.exit? (c.first + place) = none)
      (exits : ∀ i ∈ c.jobs,
        t.exit? i = if i = c.first + place then some (.outcome outcome, false) else s.exit? i)
      (settles : s.Settles (c.first + place) ending) (allowed : task.body.Allows ending)
      (tells : outcome.Tells task place ending)
      (failures : c.failures? t = (c.failures? s).map (· ++ ending.failure?.toList))
      (answer : c.answer? t = c.answer? s)
      (farewells : c.farewells t
        = c.farewells s ++ if request.hooks.onEnd.isSome then [c.first + place] else [])
      (conclude : .conclude c.run ∈ t.queue → .conclude c.run ∈ s.queue) : Effect c request s t
  /-- A line about a task cannot be written. -/
  | crashed {t : State} {number : Nat} {fault : Fault} (mem : number ∈ c.jobs)
      (before : s.exit? number = none)
      (exits : ∀ i ∈ c.jobs,
        t.exit? i = if i = number then some (.crashed fault, false) else s.exit? i)
      (answer : c.answer? t = c.answer? s)
      (conclude : .conclude c.run ∈ t.queue → .conclude c.run ∈ s.queue) : Effect c request s t
  /-- A task gives its slot back. -/
  | released {t : State} {number : Nat} {result : Result} (mem : number ∈ c.jobs)
      (before : s.exit? number = some (result, false))
      (exits : ∀ i ∈ c.jobs,
        t.exit? i = if i = number then some (result, true) else s.exit? i)
      (failures : c.failures? t = c.failures? s)
      (answer : (∀ fault, result ≠ .crashed fault) ∧ c.answer? t = c.answer? s ∨
        ∃ fault, result = .crashed fault ∧ c.answer? t = some ((c.answer? s).getD (.error fault)))
      (farewells : c.farewells t = c.farewells s)
      (conclude : .conclude c.run ∈ t.queue → .conclude c.run ∈ s.queue ∨ c.Over t) :
      Effect c request s t
  /-- The run is concluded. -/
  | concluded {t : State} (due : .conclude c.run ∈ s.queue)
      (exits : ∀ i ∈ c.jobs, t.exit? i = s.exit? i) (failures : c.failures? t = c.failures? s)
      (answer : c.answer? t = c.answer? s ∨ c.answer? s = none ∧
        ∃ run, s.runs[c.run]? = some run ∧
          c.answer? t = some (answerOf run (s.look.reportOf c.run run)))
      (farewells : c.farewells t = c.farewells s)
      (conclude : .conclude c.run ∈ t.queue → .conclude c.run ∈ s.queue) : Effect c request s t

theorem answer?_of_unsigned
    (h : (t.runs[c.run]?).map Run.unsigned = (s.runs[c.run]?).map Run.unsigned) :
    c.answer? t = c.answer? s := by
  have hanswer := congrArg (fun run? => run?.bind (·.answer)) h
  unfold answer?
  cases ht : t.runs[c.run]? <;> cases hs : s.runs[c.run]? <;> rw [ht, hs] at hanswer <;>
    exact hanswer

theorem failures?_of_unsigned
    (h : (t.runs[c.run]?).map Run.unsigned = (s.runs[c.run]?).map Run.unsigned) :
    c.failures? t = c.failures? s := by
  have hfailures := congrArg (Option.map (·.failures)) h
  unfold failures?
  rw [Option.map_map, Option.map_map] at hfailures
  exact hfailures

theorem farewells_congr (h : t.farewells = s.farewells) : c.farewells t = c.farewells s := by
  unfold Crew.farewells
  rw [h]

/-! ## Stimuli -/

/-- Nothing that arrives from outside is noticed by a run that has been opened. -/
theorem receive_effect (h : c.CarriesOut request s) (stimulus : Stimulus) :
    c.Effect request s (s.receive stimulus) := by
  have opened := h.lt_length
  have hruns := congrArg (·[c.run]?) (receive_unsigned s stimulus)
  rw [List.getElem?_append_left (by rw [List.length_map]; exact opened), List.getElem?_map,
    List.getElem?_map] at hruns
  -- the only run that a stimulus concludes is the one it opens, which is another
  refine .still (fun i hi => ?_) hruns (farewells_congr ?_) fun hmem => ?_
  · exact receive_exit? s stimulus fun job hj => h.isTask hj hi
  · exact State.farewells_congr (receive_story s stimulus)
  · exact (conclude_of_receive hmem).resolve_right fun hnew => absurd hnew.1 (by omega)

/-! ## Ticks -/

/-- What is told about the job of another run is not told to the run. -/
theorem farewells_of_stranger (stranger : number ∉ c.jobs)
    (h : t.farewells = s.farewells ∨ t.farewells = s.farewells ++ [number]) :
    c.farewells t = c.farewells s := by
  rcases h with hsame | hmore
  · exact farewells_congr hsame
  · have hnone : [number].filter (· ∈ c.jobs) = [] :=
      List.filter_cons_of_neg (by simpa using stranger)
    unfold Crew.farewells
    rw [hmore, List.filter_append, hnone, List.append_nil]

/-- The run does not see what happens to the jobs of others. -/
theorem still_of_stranger (hj : s.jobs[number]? = some job) (stranger : number ∉ c.jobs)
    {phase : Phase} (jobs : t.jobs = s.jobs)
    (run : (t.runs[c.run]?).map Run.unsigned = (s.runs[c.run]?).map Run.unsigned)
    (farewells : c.farewells t = c.farewells s)
    (conclude : .conclude c.run ∈ t.queue → .conclude c.run ∈ s.queue) :
    c.Effect request s (t.place number phase) := by
  refine .still (fun i hi => ?_) run farewells fun hmem => conclude (conclude_of_place hmem)
  have hne : i ≠ number := fun heq => stranger (heq ▸ hi)
  rw [exit?_place (s := t) (by rw [jobs]; exact hj), if_neg hne, exit?_congr jobs]

theorem CarriesOut.exists_task (h : c.CarriesOut request s) (hj : s.jobs[number]? = some job)
    (mem : number ∈ c.jobs) :
    ∃ place task, number = c.first + place ∧ request.tasks[place]? = some task ∧
      job.name = task.title place ∧ job.body = task.body := by
  have hplace := mem_jobs.mp mem
  have hlt : number - c.first < request.tasks.length := by
    rw [← h.size]
    omega
  obtain ⟨job', hj', hname, hbody⟩ := h.task _ _ (List.getElem?_eq_getElem hlt)
  rw [show c.first + (number - c.first) = number by omega] at hj'
  obtain rfl := Option.some.inj (hj.symm.trans hj')
  exact ⟨number - c.first, _, by omega, List.getElem?_eq_getElem hlt, hname, hbody⟩

theorem CarriesOut.endHook (h : c.CarriesOut request s) (runs : mid.runs = s.runs) :
    mid.endHook c.run = request.hooks.onEnd := by
  obtain ⟨run, hrun, hhooks, -⟩ := h.run
  unfold State.endHook
  rw [runs, hrun]
  exact congrArg Hooks.onEnd hhooks

theorem noteMessage_runs_ne {run : Nat} (ne : run ≠ c.run) (s : State) (ending : Ending) :
    (s.noteMessage run ending).runs[c.run]? = s.runs[c.run]? := List.getElem?_modify_ne _ _ ne

theorem noteMessage_runs (s : State) (ending : Ending) :
    (s.noteMessage c.run ending).runs[c.run]? = (s.runs[c.run]?).map fun r =>
      { r with failures := r.failures ++ ending.failure?.toList } := List.getElem?_modify_eq _ _ _

theorem answer?_of_noteMessage {ending : Ending}
    (runs : t.runs = (mid.noteMessage c.run ending).runs) (same : mid.runs = s.runs) :
    c.answer? t = c.answer? s := by
  unfold answer?
  rw [runs, noteMessage_runs, same]
  cases s.runs[c.run]? <;> rfl

theorem tells_outcomeOf {task : Task} {place : Nat} (named : job.name = task.title place)
    (times : Times) (ending : Ending) : (s.outcomeOf job times ending).Tells task place ending where
  name := named
  status := by
    unfold outcomeOf
    rw [Ending.failure?_eq]
    cases ending.fails <;> rfl
  error := ending.failure?_eq

theorem noted_runs_of_stranger (stranger : job.run? ≠ some c.run) {times : Times} {ending : Ending}
    {result : Result} (noted : Noted s number job times ending t result) :
    t.runs[c.run]? = s.runs[c.run]? := by
  have hne : ∀ run, job.run? = some run → run ≠ c.run := by
    rintro run task rfl
    exact stranger task
  cases noted with
  | call => rfl
  | outcome task beside => rw [beside.runs, noteMessage_runs_ne (hne _ task)]
  | crashed task beside => rw [beside.runs, noteMessage_runs_ne (hne _ task)]

/-- The end of a body is noted by the run of its job, and by no other. -/
theorem noted_effect (h : c.CarriesOut request s) (hj : s.jobs[number]? = some job)
    (before : job.phase.exit? = none) {times : Times} {ending : Ending} {result : Result}
    (settles : s.Settles number ending) (allowed : job.body.Allows ending)
    (jobs : mid.jobs = s.jobs) (runs : mid.runs = s.runs) (queue : mid.queue = s.popped.queue)
    (farewells : mid.farewells = s.farewells) (noted : Noted mid number job times ending t result) :
    c.Effect request s (t.place number (.leaving result)) := by
  have hjobs : t.jobs = s.jobs := noted.sameLine.jobs.trans jobs
  have hexits : ∀ i, (t.place number (.leaving result)).exit? i
      = if i = number then some (result, false) else s.exit? i := by
    intro i
    rw [exit?_place (s := t) (by rw [hjobs]; exact hj), exit?_congr hjobs]
    rfl
  have hconclude : .conclude c.run ∈ t.queue → .conclude c.run ∈ s.queue := by
    intro hmem
    rw [noted.sameLine.queue, queue] at hmem
    exact mem_of_popped hmem
  have hexit : s.exit? number = none := (exit?_of_job hj).trans before
  have hmem := h.mem_iff number job hj
  by_cases hmine : number ∈ c.jobs
  · -- the job is the run's own, so it is the run that notes its end
    have hrun : job.run? = some c.run := hmem.mpr hmine
    cases noted with
    | call direct => exact absurd (direct.symm.trans hrun) (by simp)
    | outcome task beside =>
      obtain rfl := Option.some.inj (task.symm.trans hrun)
      obtain ⟨place, task', rfl, htask, hname, hbody⟩ := h.exists_task hj hmine
      refine .noted hmine htask hexit (fun i _ => hexits i) settles (hbody ▸ allowed)
        (tells_outcomeOf hname times ending) ?_ ?_ ?_ fun hm => hconclude (conclude_of_place hm)
      · change (t.runs[c.run]?).map (·.failures) = _
        rw [beside.runs, noteMessage_runs, runs]
        unfold failures?
        rw [Option.map_map, Option.map_map]
        rfl
      · exact answer?_of_noteMessage beside.runs runs
      · change t.farewells.filter (· ∈ c.jobs) = _
        rw [beside.farewells, filterMap_ended?_farewell, h.endHook runs]
        change (mid.farewells ++ _).filter _ = _
        rw [farewells, List.filter_append]
        unfold Crew.farewells
        congr 1
        split
        · exact List.filter_cons_of_pos (decide_eq_true hmine)
        · rfl
    | crashed task beside =>
      obtain rfl := Option.some.inj (task.symm.trans hrun)
      exact .crashed hmine hexit (fun i _ => hexits i)
        (answer?_of_noteMessage beside.runs runs) fun hm => hconclude (conclude_of_place hm)
  · have hruns := noted_runs_of_stranger (mt hmem.mp hmine) noted
    refine still_of_stranger hj hmine hjobs (by rw [hruns, runs]) ?_ hconclude
    exact farewells_of_stranger hmine (farewells ▸ noted.farewells)

theorem opening_effect (h : c.CarriesOut request s) (hj : s.jobs[number]? = some job)
    (granted : job.phase = .granted) {phase : Phase}
    (opening : Opening s.popped number job t phase) :
    c.Effect request s (t.place number phase) := by
  have hbefore : job.phase.exit? = none := by
    rw [granted]
    rfl
  -- nothing that is told at the start of a body is about its end
  have hquiet : ∀ {mid : State} {told : List Event}, Beside s.popped mid told →
      told.filterMap Event.ended? = [] → mid.farewells = s.farewells :=
    fun beside quiet => beside.farewells_eq quiet
  have hstill : ∀ {mid : State}, phase.exit? = none → mid.jobs = s.jobs → mid.runs = s.runs →
      mid.queue = s.popped.queue → mid.farewells = s.farewells →
      c.Effect request s (mid.place number phase) := by
    intro mid hnone hjobs hruns hqueue hfarewells
    refine .still (fun i _ => ?_) (by rw [← hruns]; rfl) (farewells_congr hfarewells) fun hmem => ?_
    · rw [exit?_place_none (s := mid) (by rw [hjobs]; exact hj) hbefore hnone, exit?_congr hjobs]
    · have hmem := conclude_of_place hmem
      rw [hqueue] at hmem
      exact mem_of_popped hmem
  cases opening with
  | @barred _ fault told beside _ told_eq =>
    have htold : told.filterMap Event.ended? = [] := filterMap_ended?_greeting told_eq
    have hconclude : .conclude c.run ∈ t.queue → .conclude c.run ∈ s.queue := by
      intro hmem
      rw [beside.queue] at hmem
      exact mem_of_popped hmem
    by_cases hmem : number ∈ c.jobs
    · refine @Effect.crashed c request s _ number fault hmem ((exit?_of_job hj).trans hbefore)
        (fun i _ => ?_) ?_ fun hm => hconclude (conclude_of_place hm)
      · rw [exit?_place (s := t) (by rw [beside.jobs]; exact hj), exit?_congr beside.jobs]
        rfl
      · change (t.runs[c.run]?).bind (·.answer) = _
        rw [beside.runs]
        rfl
    · refine still_of_stranger hj hmem beside.jobs ?_ (farewells_congr (hquiet beside htold))
        hconclude
      rw [beside.runs]
      rfl
  | @running mid lasts beside =>
    have harm := mid.arm_sameLine number job.body
    refine hstill rfl (harm.jobs.trans beside.jobs) ((arm_runs _ _ _).trans beside.runs)
      (harm.queue.trans beside.queue) ?_
    rw [State.farewells_congr (arm_story _ _ _)]
    exact hquiet beside (filterMap_ended?_entry _ _ _)
  | settled allowed beside =>
    have hfarewells := hquiet beside (filterMap_ended?_entry _ _ _)
    by_cases hmem : number ∈ c.jobs
    · exact hstill (exit?_ended (h.isTask hj hmem) _ _) beside.jobs beside.runs beside.queue
        hfarewells
    · -- a direct call may have come to its result, which is nothing to the run
      refine still_of_stranger hj hmem beside.jobs ?_ (farewells_congr hfarewells) fun hm => ?_
      · rw [beside.runs]
        rfl
      · rw [beside.queue] at hm
        exact mem_of_popped hm
  | @thrown mid _ value result body beside _ noted =>
    refine noted_effect h hj hbefore ⟨job, hj, Or.inr ⟨granted, value, body, rfl⟩⟩ ?_ beside.jobs
      beside.runs beside.queue (hquiet beside (filterMap_ended?_entry _ _ _)) noted
    rw [body]
    rfl

/-- A direct call that is over at once is nothing to a run. -/
theorem bounced_effect (line : InLine capacity 0 s begun admitted) (h : c.CarriesOut request s)
    (queue : s.queue = .start number :: s.popped.queue) (hj : s.jobs[number]? = some job)
    (granted : job.phase = .granted) {value : Value}
    (bounced : Bounced s.popped number job value t) {result : Result} :
    c.Effect request s (t.place number (.finished result)).passOn := by
  -- a direct call belongs to no run
  have hstranger : number ∉ c.jobs := fun hmem => h.isTask hj hmem bounced.direct
  obtain ⟨-, hruns, hstory, -⟩ := passOn_keeps (t.place number (.finished result))
  refine .still (fun i hi => ?_) ?_ (farewells_congr ?_) fun hmem => ?_
  · have hne : i ≠ number := fun heq => hstranger (heq ▸ hi)
    rw [(line.gaveUp queue hj granted bounced result).exit?_passOn,
      exit?_place (s := t) (by rw [bounced.beside.jobs]; exact hj), if_neg hne,
      exit?_congr bounced.beside.jobs]
    rfl
  · rw [hruns]
    change (t.runs[c.run]?).map Run.unsigned = _
    rw [bounced.beside.runs]
    rfl
  · rw [State.farewells_congr hstory]
    exact bounced.beside.farewells_eq (filterMap_ended?_entry _ _ _)
  · have hold := conclude_of_place (conclude_of_passOn hmem)
    rw [bounced.beside.queue] at hold
    exact mem_of_popped hold

theorem CarriesOut.exists_job (h : c.CarriesOut request s) (mem : number ∈ c.jobs) :
    ∃ job, s.jobs[number]? = some job := by
  have hplace := mem_jobs.mp mem
  have hlt : number - c.first < request.tasks.length := by
    rw [← h.size]
    omega
  obtain ⟨job, hj, -⟩ := h.task _ _ (List.getElem?_eq_getElem hlt)
  rw [show c.first + (number - c.first) = number by omega] at hj
  exact ⟨job, hj⟩

/-- A run is complete when all its jobs have given their slots back. -/
theorem CarriesOut.over_of_isComplete (h : c.CarriesOut request s)
    (complete : s.isComplete c.run = true) : c.Over s := by
  intro number hmem
  obtain ⟨job, hj⟩ := h.exists_job hmem
  -- the jobs that the runner looks through are those of the run
  have hentry : (number, job) ∈ s.jobsOf c.run := by
    unfold jobsOf
    rw [List.mem_map]
    refine ⟨(job, number), ?_, rfl⟩
    rw [List.mem_filter]
    exact ⟨List.mk_mem_zipIdx_iff_getElem?.mpr hj,
      decide_eq_true ((h.mem_iff number job hj).mpr hmem)⟩
  unfold isComplete at complete
  rw [Bool.and_eq_true, List.all_eq_true] at complete
  have hfinished : job.phase.isFinished = true := complete.2 _ hentry
  cases hp : job.phase with
  | finished result =>
    refine ⟨result, (exit?_of_job hj).trans ?_⟩
    rw [hp]
    rfl
  | waiting | granted | running | settled | leaving =>
    rw [hp] at hfinished
    exact Bool.noConfusion hfinished

/-- What the run of a job makes of its result, and other runs do not. -/
theorem reportBack_runs (s : State) (job : Job) (result : Result) :
    (s.reportBack job result).runs[c.run]? = (s.runs[c.run]?).map fun r =>
      match result with
      | .crashed fault =>
        if job.run? = some c.run ∧ r.answer = none then { r with answer := some (.error fault) }
        else r
      | _ => r := by
  have hsame : ∀ runs : List Run, runs[c.run]? = (runs[c.run]?).map fun r => r :=
    fun runs => Option.map_id'.symm
  rw [reportBack_eq]
  change (s.blamed job result).runs[c.run]? = _
  unfold blamed
  -- only a crash is told to the run before it is concluded, and only the first one counts
  cases result with
  | outcome | returned | threw => cases job.run? <;> exact hsame _
  | crashed fault =>
    cases hrun : job.run? with
    | none => simp
    | some run =>
      change (s.runs.modify run _)[c.run]? = _
      rw [List.getElem?_modify]
      cases s.runs[c.run]? with
      | none => split <;> rfl
      | some r =>
        by_cases heq : run = c.run
        · subst heq
          cases hanswer : r.answer <;> simp [hanswer]
        · simp [heq]

theorem failures?_reportBack (s : State) (job : Job) (result : Result) :
    c.failures? (s.reportBack job result) = c.failures? s := by
  unfold failures?
  rw [reportBack_runs, Option.map_map]
  cases result with
  | crashed fault =>
    cases s.runs[c.run]? with
    | none => rfl
    | some r =>
      simp only [Option.map_some, Function.comp_apply]
      split <;> rfl
  | outcome | returned | threw => rfl

/-- A crash is the answer of the run, unless it has one already. -/
theorem answer?_reportBack {run : Run} (run_eq : s.runs[c.run]? = some run)
    (of : job.run? = some c.run) (result : Result) :
    (∀ fault, result ≠ .crashed fault) ∧ c.answer? (s.reportBack job result) = c.answer? s ∨
      ∃ fault, result = .crashed fault ∧
        c.answer? (s.reportBack job result) = some ((c.answer? s).getD (.error fault)) := by
  unfold answer?
  rw [reportBack_runs, run_eq]
  cases result with
  | crashed fault =>
    refine Or.inr ⟨fault, rfl, ?_⟩
    cases hanswer : run.answer <;> simp [of, hanswer]
  | outcome | returned | threw => exact Or.inl ⟨by simp, rfl⟩

theorem reportBack_runs_of_stranger (stranger : job.run? ≠ some c.run) (s : State)
    (result : Result) : (s.reportBack job result).runs[c.run]? = s.runs[c.run]? := by
  rw [reportBack_runs]
  cases result with
  | crashed fault => simp [stranger]
  | outcome | returned | threw => exact Option.map_id'

theorem released_effect (line : InLine capacity 0 s begun admitted) (h : c.CarriesOut request s)
    {result : Result} (queue : s.queue = .release number :: s.popped.queue)
    (hj : s.jobs[number]? = some job) (leaving : job.phase = .leaving result)
    (carriesOut : c.CarriesOut request
      (((s.popped.place number (.finished result)).passOn).reportBack job result)) :
    c.Effect request s
      (((s.popped.place number (.finished result)).passOn).reportBack job result) := by
  have hruns : (s.popped.place number (.finished result)).passOn.runs = s.runs :=
    (passOn_keeps _).2.1
  have hexits : ∀ i, (((s.popped.place number (.finished result)).passOn).reportBack job
      result).exit? i = if i = number then some (result, true) else s.exit? i := by
    intro i
    rw [exit?_congr (reportBack_keeps _ _ _).1, (line.leave queue hj leaving).exit?_passOn,
      exit?_place (s := s.popped) hj]
    rfl
  have hfarewells : (((s.popped.place number (.finished result)).passOn).reportBack job
      result).farewells = s.farewells :=
    State.farewells_congr ((reportBack_keeps _ _ _).2.1.trans (passOn_keeps _).2.2.1)
  have hconclude : .conclude c.run ∈ (((s.popped.place number (.finished result)).passOn).reportBack
      job result).queue → .conclude c.run ∈ s.queue ∨ job.run? = some c.run ∧
        (((s.popped.place number (.finished result)).passOn).reportBack job result).isComplete c.run
          = true := by
    intro hmem
    refine (conclude_of_reportBack hmem).imp_left fun hold => ?_
    exact mem_of_popped (conclude_of_place (conclude_of_passOn hold))
  have hmem := h.mem_iff number job hj
  -- how the slot has passed on no longer matters
  generalize (s.popped.place number (.finished result)).passOn = mid at *
  have hanswer : c.answer? mid = c.answer? s := by
    unfold answer?
    rw [hruns]
  by_cases hmine : number ∈ c.jobs
  · have hexit : s.exit? number = some (result, false) := by
      rw [exit?_of_job hj, leaving]
      rfl
    refine .released hmine hexit (fun i _ => hexits i) ?_ ?_ (farewells_congr hfarewells) fun hm =>
      (hconclude hm).imp_right fun hcomplete => carriesOut.over_of_isComplete hcomplete.2
    · rw [failures?_reportBack]
      unfold failures?
      rw [hruns]
    · obtain ⟨run, hr, -⟩ := h.run
      rw [← hanswer]
      exact answer?_reportBack (hruns ▸ hr) (hmem.mpr hmine) result
  · have hstranger : job.run? ≠ some c.run := mt hmem.mp hmine
    refine .still (fun i hi => ?_) ?_ (farewells_congr hfarewells) fun hm => ?_
    · have hne : i ≠ number := fun heq => hmine (heq ▸ hi)
      rw [hexits, if_neg hne]
    · rw [reportBack_runs_of_stranger hstranger, hruns]
    · exact (hconclude hm).resolve_right fun hcomplete => hstranger hcomplete.1

theorem conclude_runs_ne (ne : number ≠ c.run) (s : State) :
    (s.conclude number).runs[c.run]? = s.runs[c.run]? := by
  unfold State.conclude
  split
  · rfl
  · split
    · rfl
    · refine (List.getElem?_modify_ne _ s.look.runs ne).trans ?_
      rw [look_runs]

/-- The conclusion of a run that has an answer changes nothing; any other run gets its answer. -/
theorem conclude_own (c : Crew) (s : State) :
    c.failures? (s.conclude c.run) = c.failures? s ∧
      (c.answer? (s.conclude c.run) = c.answer? s ∨ c.answer? s = none ∧
        ∃ run, s.runs[c.run]? = some run ∧
          c.answer? (s.conclude c.run) = some (answerOf run (s.look.reportOf c.run run))) := by
  -- an answer that is there is kept
  by_cases hopen : ∃ run, s.runs[c.run]? = some run ∧ run.answer = none
  · obtain ⟨run, hr, hunanswered⟩ := hopen
    have hget : (s.conclude c.run).runs[c.run]?
        = some { run with answer := some (answerOf run (s.look.reportOf c.run run)) } := by
      rw [conclude_eq hr hunanswered]
      refine (List.getElem?_modify_eq _ _ _).trans ?_
      rw [look_runs, hr]
      rfl
    unfold failures? answer?
    rw [hget, hr]
    exact ⟨rfl, Or.inr ⟨hunanswered, run, rfl, rfl⟩⟩
  · have hself : s.conclude c.run = s := by
      refine conclude_eq_self fun run hr hunanswered => ?_
      exact hopen ⟨run, hr, hunanswered⟩
    rw [hself]
    exact ⟨rfl, Or.inl rfl⟩

theorem concluded_effect (queue : s.queue = .conclude number :: s.popped.queue) :
    c.Effect request s (s.popped.conclude number) := by
  have same := conclude_sameLine s.popped number
  have hexits : ∀ i, (s.popped.conclude number).exit? i = s.exit? i :=
    fun i => exit?_congr same.jobs i
  have hfarewells : (s.popped.conclude number).farewells = s.farewells :=
    State.farewells_congr (conclude_keeps s.popped number).1
  have hconclude : .conclude c.run ∈ (s.popped.conclude number).queue →
      .conclude c.run ∈ s.queue := by
    rw [same.queue]
    exact mem_of_popped
  by_cases hnumber : number = c.run
  · -- the conclusion is the run's own, and was due
    subst hnumber
    have hdue : .conclude c.run ∈ s.queue := by
      rw [queue]
      exact List.mem_cons_self
    obtain ⟨hfailures, hanswer⟩ := conclude_own c s.popped
    rw [look_popped] at hanswer
    exact .concluded hdue (fun i _ => hexits i) hfailures hanswer (farewells_congr hfarewells)
      hconclude
  · refine .still (fun i _ => hexits i) ?_ (farewells_congr hfarewells) hconclude
    rw [conclude_runs_ne hnumber]
    rfl

/-- **What a tick means for a run.** It is one of the things that `Effect` lists. -/
theorem ticked_effect (line : InLine capacity 0 s begun admitted) (sound : Sound s)
    (h : c.CarriesOut request s) (ticked : Ticked s t) : c.Effect request s t := by
  have hcarries := h.ticked ticked
  cases ticked with
  | quiet => exact .still (fun _ _ => rfl) rfl rfl id
  | started _ job_eq granted opening => exact opening_effect h job_eq granted opening
  | bounced queue job_eq granted bounced =>
    exact bounced_effect line h queue job_eq granted bounced
  | @finished number job times ending _ _ _ job_eq settled noted =>
    have hallowed := sound.suits number job job_eq
    rw [settled] at hallowed
    have hbefore : job.phase.exit? = none := by
      rw [settled]
      rfl
    -- the ending suits the body, since the job has settled with it
    refine noted_effect h job_eq hbefore ⟨job, job_eq, Or.inl ⟨times, settled⟩⟩ hallowed ?_ ?_ ?_ ?_
      noted
    · rfl
    · rfl
    · rfl
    · rfl
  | released queue job_eq leaving => exact released_effect line h queue job_eq leaving hcarries
  | concluded queue => exact concluded_effect queue

end Crew

end BoundedJobs
