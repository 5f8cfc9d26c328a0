import BoundedJobs.Proofs.Runner.Moves
import Mathlib.Data.List.Induction

/-!
# The jobs of a run

What a run and its jobs are is settled when the run is submitted: its hooks, and for every job its
run, its name and its body. Later moves only change phases, messages, signals and answers.

* `Run.fixed`, `Job.unphased` — the part that is settled, which ticks keep (`Ticked.fixed`,
  `Ticked.unphased`) and to which stimuli only append (`receive_fixed`, `receive_unphased`);
* `Crew` — a run with the numbers of its jobs;
* `Crew.CarriesOut` — the run is that of a request, and its jobs are those of the request's tasks,
  in their order. It holds from the submission on (`carriesOut_receive`), and every move keeps it;
* `Crew.map_fst_jobsOf` — the jobs of the run, as the report finds them.
-/

namespace BoundedJobs

/-- The data of a run that never change. -/
def Run.fixed (run : Run) : Run := { run.unsigned with failures := [], answer := none }

namespace State

open Relation

variable {s t u origin : State} {number : Nat} {job : Job}

/-! ## What never changes -/

/-- The runs that a stimulus opens. -/
def openings (s : State) : Stimulus → List Run
  | .settle request => [s.runFor request]
  | _ => []

theorem fixed_of_unsigned (runs : List Run) :
    (runs.map Run.unsigned).map Run.fixed = runs.map Run.fixed := List.map_map

theorem modifyRun_fixed (s : State) (number : Nat) {change : Run → Run}
    (h : ∀ run, (change run).fixed = run.fixed) :
    (s.modifyRun number change).runs.map Run.fixed = s.runs.map Run.fixed := by
  refine List.ext_getElem? fun i => ?_
  simp only [modifyRun, List.getElem?_map, List.getElem?_modify]
  cases s.runs[i]? with
  | none => rfl
  | some run =>
    split
    · exact congrArg some (h run)
    · rfl

theorem Nudge.runs (h : Nudge origin s t) : t.runs.map Run.unsigned = s.runs.map Run.unsigned := by
  cases h with
  | aside ha => exact ha.runs
  | settled => rfl

theorem nudges_runs (h : ReflTransGen (Nudge origin) s t) :
    t.runs.map Run.unsigned = s.runs.map Run.unsigned := by
  induction h with
  | refl => rfl
  | tail _ hstep ih => exact hstep.runs.trans ih

theorem submitJob_runs (s : State) (job : Job) : (s.submitJob job).runs = s.runs := by
  unfold submitJob
  simp only
  split <;> rfl

theorem foldl_submitJob_runs (jobs : List Job) (s : State) :
    (jobs.foldl submitJob s).runs = s.runs := by
  induction jobs generalizing s with
  | nil => rfl
  | cons job jobs ih => exact (ih (s.submitJob job)).trans (submitJob_runs s job)

theorem submit_runs (s : State) (request : Request) :
    (s.submit request).runs = s.runs ++ [s.runFor request] := by
  rw [submit_eq]
  split
  · rfl
  · exact foldl_submitJob_runs _ _

/-- A submission opens its run behind all others, and no other stimulus opens one. Of the runs
there are, a stimulus changes no more than the signals. -/
theorem receive_unsigned (s : State) (stimulus : Stimulus) :
    (s.receive stimulus).runs.map Run.unsigned
      = s.runs.map Run.unsigned ++ (s.openings stimulus).map Run.unsigned := by
  cases hs : stimulus with
  | settle request =>
    change (s.submit request).runs.map Run.unsigned = _
    rw [submit_runs]
    exact List.map_append
  | call label body relayed =>
    have hruns : (s.receive (.call label body relayed)).runs = s.runs :=
      (submitJob_runs s.look _).trans (look_runs s)
    rw [hruns]
    exact (List.append_nil _).symm
  -- all other stimuli only nudge jobs that are there, and perhaps a signal
  | finish | abort | report | setLevel | setClock | setLags | fire =>
    refine (nudges_runs (receive_nudges s ?_ ?_)).trans (List.append_nil _).symm
    · simp
    · simp

theorem receive_fixed (s : State) (stimulus : Stimulus) :
    (s.receive stimulus).runs.map Run.fixed
      = s.runs.map Run.fixed ++ (s.openings stimulus).map Run.fixed := by
  rw [← fixed_of_unsigned, receive_unsigned, List.map_append, fixed_of_unsigned,
    fixed_of_unsigned]

theorem noteMessage_fixed (s : State) (run : Nat) (ending : Ending) :
    (s.noteMessage run ending).runs.map Run.fixed = s.runs.map Run.fixed :=
  modifyRun_fixed s run fun _ => rfl

theorem Noted.fixed {times : Times} {ending : Ending} {result : Result}
    (h : Noted s number job times ending t result) :
    t.runs.map Run.fixed = s.runs.map Run.fixed := by
  cases h with
  | call => rfl
  | outcome _ beside => rw [beside.runs, noteMessage_fixed]
  | crashed _ beside => rw [beside.runs, noteMessage_fixed]

theorem Opening.fixed {phase : Phase} (h : Opening s number job t phase) :
    t.runs.map Run.fixed = s.runs.map Run.fixed := by
  cases h with
  | barred beside => rw [beside.runs]
  | running _ beside => rw [arm_runs, beside.runs]
  | settled _ beside => rw [beside.runs]
  | thrown _ beside time noted => rw [noted.fixed, beside.runs]

theorem reportBack_fixed (s : State) (job : Job) (result : Result) :
    (s.reportBack job result).runs.map Run.fixed = s.runs.map Run.fixed := by
  rw [reportBack_eq]
  change (s.blamed job result).runs.map Run.fixed = _
  unfold blamed
  split
  · exact modifyRun_fixed s _ fun run => by split <;> rfl
  · rfl

theorem conclude_fixed (s : State) (number : Nat) :
    (s.conclude number).runs.map Run.fixed = s.runs.map Run.fixed := by
  unfold conclude
  split
  · rfl
  · split
    · rfl
    · refine (modifyRun_fixed s.look number ?_).trans ?_
      · exact fun _ => rfl
      · rw [look_runs]

theorem Ticked.fixed (h : Ticked s t) : t.runs.map Run.fixed = s.runs.map Run.fixed := by
  cases h with
  | quiet => rfl
  | started _ _ _ opening => exact opening.fixed
  | bounced _ _ _ bounced =>
    rw [(passOn_keeps _).2.1]
    exact congrArg (List.map Run.fixed) bounced.beside.runs
  | finished _ _ _ noted => exact noted.fixed
  | released =>
    rw [reportBack_fixed, (passOn_keeps _).2.1]
    rfl
  | concluded => exact conclude_fixed _ _

/-! ## Jobs before and after -/

/-- What is read off the elements of a list stays what it is when others come behind them. -/
theorem exists_of_map_append {α β : Type} {f : α → β} {old new : List α} {more : List β} {i : Nat}
    {a : α} (h : new.map f = old.map f ++ more) (ha : old[i]? = some a) :
    ∃ b, new[i]? = some b ∧ f b = f a := by
  have hlt : i < (old.map f).length := by
    rw [List.length_map]
    exact (List.getElem?_eq_some_iff.mp ha).1
  have hget : (new.map f)[i]? = some (f a) := by
    rw [h, List.getElem?_append_left hlt, List.getElem?_map, ha]
    rfl
  rw [List.getElem?_map] at hget
  exact Option.map_eq_some_iff.mp hget

/-- A job stays what it is when others come behind it. -/
theorem exists_job_after {more : List Job}
    (h : t.jobs.map Job.unphased = s.jobs.map Job.unphased ++ more)
    (hj : s.jobs[number]? = some job) :
    ∃ job', t.jobs[number]? = some job' ∧ job'.unphased = job.unphased :=
  exists_of_map_append h hj

/-- A job was there before, or is one of those that have come. -/
theorem exists_job_before {more : List Job}
    (h : t.jobs.map Job.unphased = s.jobs.map Job.unphased ++ more)
    (hj : t.jobs[number]? = some job) :
    (∃ job', s.jobs[number]? = some job' ∧ job'.unphased = job.unphased) ∨
      s.jobs.length ≤ number ∧ more[number - s.jobs.length]? = some job.unphased := by
  have hget : (s.jobs.map Job.unphased ++ more)[number]? = some job.unphased := by
    rw [← h, List.getElem?_map, hj]
    rfl
  rcases Nat.lt_or_ge number (s.jobs.map Job.unphased).length with hlt | hge
  · rw [List.getElem?_append_left hlt, List.getElem?_map] at hget
    exact Or.inl (Option.map_eq_some_iff.mp hget)
  · rw [List.getElem?_append_right hge, List.length_map] at hget
    rw [List.length_map] at hge
    exact Or.inr ⟨hge, hget⟩

/-- The jobs that come with a stimulus belong to the run that it opens, if to any. -/
theorem run?_newcomers {stimulus : Stimulus} {run : Nat} (mem : job ∈ s.newcomers stimulus)
    (of : job.run? = some run) : run = s.runs.length ∧ s.openings stimulus ≠ [] := by
  cases stimulus with
  | settle request =>
    obtain ⟨⟨task, place⟩, -, rfl⟩ := List.mem_map.mp mem
    exact ⟨(Option.some.inj of).symm, List.cons_ne_nil _ _⟩
  | call label body relayed =>
    rw [List.mem_singleton.mp mem] at of
    exact absurd of (by simp [Job.run?])
  | finish | abort | report | setLevel | setClock | setLags | fire =>
    exact absurd mem List.not_mem_nil

/-- Every job that belongs to a run belongs to one that has been opened, and only such a run is
concluded. -/
structure Enrolled (s : State) : Prop where
  jobs : ∀ (number : Nat) (job : Job), s.jobs[number]? = some job →
    ∀ run, job.run? = some run → run < s.runs.length
  conclude : ∀ run, .conclude run ∈ s.queue → run < s.runs.length

theorem length_runs_of_fixed {more : List Run}
    (h : t.runs.map Run.fixed = s.runs.map Run.fixed ++ more) :
    t.runs.length = s.runs.length + more.length := by
  have hlength := congrArg List.length h
  rwa [List.length_map, List.length_append, List.length_map] at hlength

theorem Enrolled.receive (h : s.Enrolled) (stimulus : Stimulus) :
    (s.receive stimulus).Enrolled := by
  have hlength := length_runs_of_fixed (receive_fixed s stimulus)
  have hopened : s.openings stimulus ≠ [] → s.runs.length < (s.receive stimulus).runs.length := by
    intro hne
    have hpos : 0 < ((s.openings stimulus).map Run.fixed).length := by
      rw [List.length_map]
      exact List.length_pos_of_ne_nil hne
    omega
  refine ⟨fun number job hj run hrun => ?_, fun run hmem => ?_⟩
  · -- a job was there before, or belongs to the run that has just been opened
    rcases exists_job_before (receive_unphased s stimulus) hj with ⟨job', hj', hsame⟩ | ⟨-, hnew⟩
    · have hrun' : job'.run? = some run := (congrArg Job.run? hsame).trans hrun
      have := h.jobs number job' hj' run hrun'
      omega
    · obtain ⟨rfl, hne⟩ := run?_newcomers (List.mem_of_getElem? hnew) hrun
      exact hopened hne
  · rcases conclude_of_receive hmem with hold | ⟨rfl, request, rfl, -⟩
    · have := h.conclude run hold
      omega
    · exact hopened (List.cons_ne_nil _ _)

theorem Enrolled.ticked (h : s.Enrolled) (ticked : Ticked s t) : t.Enrolled := by
  have hunphased : t.jobs.map Job.unphased = s.jobs.map Job.unphased ++ [] :=
    ticked.unphased.trans (List.append_nil _).symm
  have hlength := congrArg List.length ticked.fixed
  rw [List.length_map, List.length_map] at hlength
  refine ⟨fun number job hj run hrun => ?_, fun run hmem => ?_⟩
  · rcases exists_job_before hunphased hj with ⟨job', hj', hsame⟩ | ⟨-, hnew⟩
    · have hrun' : job'.run? = some run := (congrArg Job.run? hsame).trans hrun
      rw [hlength]
      exact h.jobs number job' hj' run hrun'
    · exact absurd (List.mem_of_getElem? hnew) List.not_mem_nil
  · rw [hlength]
    rcases ticked.conclude hmem with hold | ⟨number, job, hj, hrun⟩
    · exact h.conclude run hold
    · exact h.jobs number job hj run hrun

theorem enrolled_after {capacity : Nat} (positive : 0 < capacity) (clock : Number)
    (level : Log.Level) (shell : Shell) (moves : List Move) :
    ((fresh positive clock level shell).after moves).Enrolled := by
  induction moves using List.reverseRecOn with
  | nil =>
    refine ⟨fun number job hj => absurd hj ?_, fun run hmem => absurd hmem List.not_mem_nil⟩
    simp [fresh, State.idle]
  | append_singleton moves m ih =>
    rw [after_concat]
    cases m with
    | arrive stimulus => exact ih.receive stimulus
    | tick =>
      obtain ⟨begun, admitted, h⟩ := inLine_after positive clock level shell moves
      exact ih.ticked h.ticked

end State

/-! ## The crew of a run -/

/-- A run with its jobs: their numbers follow one another. -/
structure Crew where
  run : Nat
  /-- The number of the first job. -/
  first : Nat
  /-- How many jobs there are. -/
  size : Nat

namespace Crew

open State

variable {c : Crew} {request : Request} {s t : State} {number : Nat} {job : Job}

/-- The numbers of the jobs of a run, in the order of its tasks. -/
def jobs (c : Crew) : List Nat := List.range' c.first c.size

theorem mem_jobs : number ∈ c.jobs ↔ c.first ≤ number ∧ number < c.first + c.size :=
  List.mem_range'_1

/-- The crew that a request gets when it arrives. -/
def ofRequest (s : State) (request : Request) : Crew :=
  { run := s.runs.length, first := s.jobs.length, size := request.tasks.length }

/-- The run of a crew is that of a request, and its jobs are those of the request's tasks. -/
structure CarriesOut (c : Crew) (request : Request) (s : State) : Prop where
  run : ∃ run, s.runs[c.run]? = some run ∧ run.hooks = request.hooks ∧ run.strict = request.strict
  size : c.size = request.tasks.length
  mem_iff : ∀ (number : Nat) (job : Job), s.jobs[number]? = some job →
    (job.run? = some c.run ↔ number ∈ c.jobs)
  task : ∀ (place : Nat) (task : Task), request.tasks[place]? = some task →
    ∃ job, s.jobs[c.first + place]? = some job ∧ job.name = task.title place ∧ job.body = task.body

theorem CarriesOut.congr {runs : List Run} {jobs : List Job} (h : c.CarriesOut request s)
    (fixed : t.runs.map Run.fixed = s.runs.map Run.fixed ++ runs)
    (unphased : t.jobs.map Job.unphased = s.jobs.map Job.unphased ++ jobs)
    (strangers : ∀ job ∈ jobs, job.run? ≠ some c.run) : c.CarriesOut request t where
  run := by
    obtain ⟨run, hrun, hhooks, hstrict⟩ := h.run
    obtain ⟨run', hrun', hsame⟩ := exists_of_map_append fixed hrun
    exact ⟨run', hrun', (congrArg Run.hooks hsame).trans hhooks,
      (congrArg Run.strict hsame).trans hstrict⟩
  size := h.size
  mem_iff := by
    intro number job hj
    rcases exists_job_before unphased hj with ⟨job', hj', hsame⟩ | ⟨hle, hnew⟩
    · have hrun : job'.unphased.run? = job.unphased.run? := congrArg Job.run? hsame
      rw [← h.mem_iff number job' hj', show job'.run? = job.run? from hrun]
    · have hstranger : job.run? ≠ some c.run :=
        strangers job.unphased (List.mem_of_getElem? hnew)
      refine ⟨fun hrun => absurd hrun hstranger, fun hmem => ?_⟩
      -- the numbers of the run's jobs are taken already
      exfalso
      have hplace := mem_jobs.mp hmem
      have hlt : number - c.first < request.tasks.length := by
        rw [← h.size]
        omega
      obtain ⟨job', hj', -⟩ := h.task _ _ (List.getElem?_eq_getElem hlt)
      have := (List.getElem?_eq_some_iff.mp hj').1
      omega
  task := by
    intro place task htask
    obtain ⟨job, hj, hname, hbody⟩ := h.task place task htask
    obtain ⟨job', hj', hsame⟩ := exists_job_after unphased hj
    exact ⟨job', hj', (congrArg Job.name hsame).trans hname,
      (congrArg Job.body hsame).trans hbody⟩

theorem CarriesOut.lt_length (h : c.CarriesOut request s) : c.run < s.runs.length := by
  obtain ⟨run, hrun, -⟩ := h.run
  exact (List.getElem?_eq_some_iff.mp hrun).1

/-- The jobs of a run are tasks, and no direct calls. -/
theorem CarriesOut.isTask (h : c.CarriesOut request s) (hj : s.jobs[number]? = some job)
    (mem : number ∈ c.jobs) : job.run? ≠ none := by
  rw [(h.mem_iff number job hj).mpr mem]
  exact Option.some_ne_none _

theorem CarriesOut.receive (h : c.CarriesOut request s) (stimulus : Stimulus) :
    c.CarriesOut request (s.receive stimulus) := by
  refine h.congr (receive_fixed s stimulus) (receive_unphased s stimulus) ?_
  intro job hmem hrun
  obtain ⟨hlength, -⟩ := run?_newcomers hmem hrun
  have := h.lt_length
  omega

theorem CarriesOut.ticked (h : c.CarriesOut request s) (ticked : Ticked s t) :
    c.CarriesOut request t :=
  h.congr (ticked.fixed.trans (List.append_nil _).symm)
    (ticked.unphased.trans (List.append_nil _).symm) fun _ hmem => absurd hmem List.not_mem_nil

/-- A request that arrives gets a run and jobs of its own. -/
theorem carriesOut_receive (enrolled : s.Enrolled) (request : Request) :
    (ofRequest s request).CarriesOut request (s.receive (.settle request)) where
  run := by
    have hfixed := receive_fixed s (.settle request)
    have hle : (s.runs.map Run.fixed).length ≤ s.runs.length := Nat.le_of_eq (List.length_map _)
    have hget : ((s.receive (.settle request)).runs.map Run.fixed)[s.runs.length]?
        = some (s.runFor request).fixed := by
      rw [hfixed, List.getElem?_append_right hle, List.length_map, Nat.sub_self]
      rfl
    rw [List.getElem?_map] at hget
    obtain ⟨run, hrun, hsame⟩ := Option.map_eq_some_iff.mp hget
    exact ⟨run, hrun, congrArg Run.hooks hsame, congrArg Run.strict hsame⟩
  size := rfl
  mem_iff := by
    intro number job hj
    rw [mem_jobs]
    change job.run? = some s.runs.length ↔
      s.jobs.length ≤ number ∧ number < s.jobs.length + request.tasks.length
    rcases exists_job_before (receive_unphased s (.settle request)) hj with
      ⟨job', hj', hsame⟩ | ⟨hle, hnew⟩
    · -- a job from before cannot belong to a run that was not there
      have hlt := (List.getElem?_eq_some_iff.mp hj').1
      refine ⟨fun hrun => ?_, fun hplace => absurd hplace.1 (by omega)⟩
      have hrun' : job'.run? = some s.runs.length := (congrArg Job.run? hsame).trans hrun
      exact absurd (enrolled.jobs number job' hj' _ hrun') (Nat.lt_irrefl _)
    · have hlt := (List.getElem?_eq_some_iff.mp hnew).1
      rw [length_newcomers] at hlt
      obtain ⟨⟨task, place⟩, -, hsame⟩ := List.mem_map.mp (List.mem_of_getElem? hnew)
      have hrun : job.run? = some s.runs.length := (congrArg Job.run? hsame).symm
      refine ⟨fun _ => ⟨hle, by omega⟩, fun _ => hrun⟩
  task := by
    intro place task htask
    have hunphased := receive_unphased s (.settle request)
    have hget : ((s.receive (.settle request)).jobs.map Job.unphased)[s.jobs.length + place]?
        = some (s.nextJob request task place) := by
      rw [hunphased, List.getElem?_append_right (by rw [List.length_map]; omega),
        List.length_map, Nat.add_sub_cancel_left]
      exact getElem?_newcomers s htask
    rw [List.getElem?_map] at hget
    obtain ⟨job, hj, hsame⟩ := Option.map_eq_some_iff.mp hget
    exact ⟨job, hj, congrArg Job.name hsame, congrArg Job.body hsame⟩

/-! ## The jobs as the report finds them -/

theorem CarriesOut.length_le (h : c.CarriesOut request s) (pos : 0 < c.size) :
    c.first + c.size ≤ s.jobs.length := by
  have hlt : c.size - 1 < request.tasks.length := by
    rw [← h.size]
    omega
  obtain ⟨job, hj, -⟩ := h.task _ _ (List.getElem?_eq_getElem hlt)
  have := (List.getElem?_eq_some_iff.mp hj).1
  omega

theorem filter_mem_range' {first size length : Nat} (le : first + size ≤ length) :
    (List.range' 0 length).filter (· ∈ List.range' first size) = List.range' first size := by
  -- the numbers before, the numbers in question, and the numbers behind
  have hsplit : List.range' 0 length = List.range' 0 first ++ List.range' first size
      ++ List.range' (first + size) (length - (first + size)) := by
    have hfront : List.range' 0 first ++ List.range' (0 + first) size
        = List.range' 0 (first + size) := List.range'_append_1
    have hwhole : List.range' 0 (first + size)
        ++ List.range' (0 + (first + size)) (length - (first + size))
        = List.range' 0 (first + size + (length - (first + size))) := List.range'_append_1
    rw [Nat.zero_add] at hfront hwhole
    rw [hfront, hwhole, Nat.add_sub_cancel' le]
  have hnone : ∀ start count, (∀ i ∈ List.range' start count, i ∉ List.range' first size) →
      (List.range' start count).filter (· ∈ List.range' first size) = [] := by
    intro start count hout
    rw [List.filter_eq_nil_iff]
    intro i hi
    rw [decide_eq_true_eq]
    exact hout i hi
  rw [hsplit, List.filter_append, List.filter_append, hnone 0 first, hnone (first + size),
    List.append_nil, List.nil_append, List.filter_eq_self]
  · exact fun i hi => decide_eq_true hi
  · intro i hi
    rw [List.mem_range'_1] at hi ⊢
    omega
  · intro i hi
    rw [List.mem_range'_1] at hi ⊢
    omega

/-- The report goes through the jobs of the run in the order of its tasks. -/
theorem CarriesOut.map_fst_jobsOf (h : c.CarriesOut request s) :
    (s.jobsOf c.run).map Prod.fst = c.jobs := by
  have hmem : ∀ entry ∈ s.jobs.zipIdx,
      decide (entry.1.run? = some c.run) = decide (entry.2 ∈ c.jobs) := by
    rintro ⟨job, number⟩ hentry
    exact decide_eq_decide.mpr (h.mem_iff number job (List.mk_mem_zipIdx_iff_getElem?.mp hentry))
  -- to belong to the run and to have one of its numbers is the same
  have hnumbers : (s.jobsOf c.run).map Prod.fst
      = (List.range' 0 s.jobs.length).filter (· ∈ c.jobs) := by
    unfold jobsOf
    rw [List.map_map, List.filter_congr hmem, ← List.zipIdx_map_snd 0 s.jobs, List.filter_map]
    rfl
  rw [hnumbers]
  rcases Nat.eq_zero_or_pos c.size with hzero | hpos
  · -- a run without tasks has no jobs
    have hnone : c.jobs = [] := by
      unfold jobs
      rw [hzero]
      rfl
    rw [hnone, List.filter_eq_nil_iff]
    simp
  · exact filter_mem_range' (h.length_le hpos)

theorem mem_jobsOf {run : Nat} {entry : Nat × Job} (h : entry ∈ s.jobsOf run) :
    s.jobs[entry.1]? = some entry.2 := by
  obtain ⟨⟨job, number⟩, hmem, rfl⟩ := List.mem_map.mp h
  exact List.mk_mem_zipIdx_iff_getElem?.mp (List.mem_of_mem_filter hmem)

end Crew

end BoundedJobs
