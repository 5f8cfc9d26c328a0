import BoundedJobs.Proofs.Runner.Conclusion
import BoundedJobs.Proofs.Runner.Lockstep

/-!
# Faults stay with their tasks

What a task throws or returns, and what a hook throws, concerns nobody else: `faults_contained`.

The siblings of a task are compared with what they would have been without its fault. The other run
makes the same moves, but its hooks throw nothing, and the tasks at the places in question throw
plain errors (`Request.tamed`, `Move.tamed`). From the submission on the states of the two runs have
one outline (`outline_after_tamed`), and the outline of a state holds all there is to know of a task
that is not in question (`getElem?_of_outline`).
-/

namespace BoundedJobs

/-! ## The run without faults -/

/-- The same hooks, but they throw nothing. -/
def Hooks.calm (hooks : Hooks) : Hooks :=
  { onStart := hooks.onStart.map fun _ => { throws := fun _ => none }
    onEnd := hooks.onEnd.map fun _ => { throws := fun _ => none } }

/-- The same request, but no hook throws, and the tasks at some places throw plain errors. -/
def Request.tamed (faulty : List Nat) (request : Request) : Request :=
  { request with
    hooks := request.hooks.calm
    tasks := request.tasks.mapIdx fun place task =>
      { task with body := task.body.outline (faulty.contains place) } }

/-- The same move, but suspects whose bodies are told to end are told to throw plain errors. -/
def Move.tamed (suspect : Nat → Bool) : Move → Move
  | .arrive (.finish job ending) => .arrive (.finish job (ending.outline (suspect job)))
  | m => m

theorem Request.outline_tamed (request : Request) (faulty : List Nat) :
    (request.tamed faulty).outline faulty.contains = request.outline faulty.contains := by
  have htasks : (request.tamed faulty).tasks.mapIdx (fun place task =>
        ({ task with body := task.body.outline (faulty.contains place) } : Task))
      = request.tasks.mapIdx fun place task =>
        { task with body := task.body.outline (faulty.contains place) } := by
    unfold Request.tamed
    rw [List.mapIdx_mapIdx]
    refine congrArg (List.mapIdx · request.tasks) (funext fun place => funext fun task => ?_)
    exact congrArg (Task.mk task.name) (task.body.outline_outline _)
  exact congrArg (fun tasks => ({ request with hooks := {}, tasks } : Request)) htasks

namespace State

variable {s t : State} {suspect : Nat → Bool} {number : Nat}

/-! ## States with one outline -/

theorem sameTime_of_outline (h : t.outline suspect = s.outline suspect) : SameTime s t := by
  have hclock := congrArg (·.clock) h
  have hlags := congrArg (·.lags) h
  exact ⟨hclock, hlags⟩

theorem queue_of_outline (h : t.outline suspect = s.outline suspect) : t.queue = s.queue := by
  have hqueue := congrArg (·.queue) h
  exact hqueue

theorem length_of_outline (h : t.outline suspect = s.outline suspect) :
    t.jobs.length = s.jobs.length := by
  have hlength := congrArg (·.jobs.length) h
  exact (List.length_mapIdx.symm.trans hlength).trans List.length_mapIdx

/-- Nothing is left out of the outline of a job that is no suspect. -/
theorem getElem?_of_outline (h : t.outline suspect = s.outline suspect)
    (known : suspect number = false) : t.jobs[number]? = s.jobs[number]? := by
  have hjob : ∀ job : Job, job.outline false = job := by
    rintro ⟨run?, label, place, name, body, submitted, phase⟩
    cases phase with
    | leaving result | finished result => cases result <;> rfl
    | waiting | granted | running | settled => rfl
  have hsame : ∀ u : State, (u.outline suspect).jobs[number]? = u.jobs[number]? := by
    intro u
    rw [outline_jobs, known]
    cases u.jobs[number]? with
    | none => rfl
    | some job => exact congrArg some (hjob job)
  rw [← hsame t, h, hsame s]

theorem unsettled_of_outline (h : t.outline suspect = s.outline suspect) :
    number ∈ t.unsettled ↔ number ∈ s.unsettled := by
  have hjob : ∀ u : State, number ∈ u.unsettled ↔ number ∈ (u.outline suspect).unsettled := by
    intro u
    rw [mem_unsettled, mem_unsettled, outline_jobs]
    constructor
    · rintro ⟨job, hj, hphase⟩
      refine ⟨job.outline (suspect number), by rw [hj]; rfl, ?_⟩
      exact (job.phase.isFinished_outline _).trans hphase
    · rintro ⟨job, hj, hphase⟩
      obtain ⟨job', hj', rfl⟩ := Option.map_eq_some_iff.mp hj
      exact ⟨job', hj', (job'.phase.isFinished_outline _).symm.trans hphase⟩
  rw [hjob t, h, ← hjob s]

/-! ## Lockstep -/

/-- **One move in both runs.** -/
theorem outline_move_tamed (dated : s.Dated) (h : t.outline suspect = s.outline suspect)
    (m : Move) : (t.move (m.tamed suspect)).outline suspect = (s.move m).outline suspect := by
  cases m with
  | tick =>
    have hdated : t.Dated := dated.congr (sameTime_of_outline h)
    change t.tick.outline suspect = s.tick.outline suspect
    rw [outline_tick suspect dated, outline_tick suspect hdated, h]
  | arrive stimulus =>
    have hreceive : ∀ other : Stimulus,
        other.outline suspect s.jobs.length = stimulus.outline suspect s.jobs.length →
          (t.receive other).outline suspect = (s.receive stimulus).outline suspect := by
      -- what arrives acts on the outline alone, and both have the same
      intro other hsame
      rw [outline_receive suspect t, outline_receive suspect s, length_of_outline h, h, hsame]
    cases stimulus with
    | finish job ending =>
      exact hreceive _ (congrArg (Stimulus.finish job) (ending.outline_outline _))
    | settle | call | abort | report | setLevel | setClock | setLags | fire => exact hreceive _ rfl

/-- **All moves in both runs.** -/
theorem outline_after_tamed (h : t.outline suspect = s.outline suspect) (moves : List Move)
    (dated : ∀ moment, moment <+: moves → (s.after moment).Dated) :
    (t.after (moves.map (Move.tamed suspect))).outline suspect
      = (s.after moves).outline suspect := by
  induction moves generalizing s t with
  | nil => exact h
  | cons m moves ih =>
    have hnow : s.Dated := dated [] List.nil_prefix
    exact ih (outline_move_tamed hnow h m) fun moment hmoment =>
      dated (m :: moment) ((List.prefix_cons_inj m).mpr hmoment)

end State

/-! ## What a fault means for others -/

namespace Crew

open State

variable {c : Crew} {s t : State} {capacity : Nat}

/-- The jobs of the tasks at some places. -/
def suspects (c : Crew) (faulty : List Nat) (number : Nat) : Bool :=
  decide (c.first ≤ number) && faulty.contains (number - c.first)

theorem suspects_add (c : Crew) (faulty : List Nat) (place : Nat) :
    c.suspects faulty (c.first + place) = faulty.contains place := by
  unfold suspects
  rw [decide_eq_true (Nat.le_add_right _ _), Bool.true_and, Nat.add_sub_cancel_left]

theorem ofRequest_tamed (s : State) (request : Request) (faulty : List Nat) :
    ofRequest s (request.tamed faulty) = ofRequest s request :=
  congrArg (Crew.mk s.runs.length s.jobs.length) List.length_mapIdx

/-- The run without faults begins like the run. -/
theorem outline_receive_tamed (s : State) (request : Request) (faulty : List Nat) :
    (s.receive (.settle (request.tamed faulty))).outline ((ofRequest s request).suspects faulty)
      = (s.receive (.settle request)).outline ((ofRequest s request).suspects faulty) := by
  have hplaces : (fun place => (ofRequest s request).suspects faulty (s.jobs.length + place))
      = faulty.contains := funext fun place => suspects_add (ofRequest s request) faulty place
  have hrequest : ∀ other : Request,
      (s.receive (.settle other)).outline ((ofRequest s request).suspects faulty)
        = (s.outline ((ofRequest s request).suspects faulty)).submit
            (other.outline faulty.contains) := by
    intro other
    rw [← hplaces]
    exact outline_submit _ s other
  rw [hrequest, hrequest, request.outline_tamed]

/-- Two reports agree on a task that has come to the same outcome in both runs. -/
theorem Reported.task_congr {report other : Report} (h : c.Reported s report)
    (h' : c.Reported t other) {place : Nat}
    (same : t.jobs[c.first + place]? = s.jobs[c.first + place]?) :
    other.tasks[place]? = report.tasks[place]? := by
  have hresult : t.result? (c.first + place) = s.result? (c.first + place) := by
    refine result?_congr ?_
    unfold exit?
    rw [same]
  rcases Nat.lt_or_ge place c.size with hlt | hge
  · obtain ⟨outcome, hget, houtcome⟩ := h.task place hlt
    obtain ⟨outcome', hget', houtcome'⟩ := h'.task place hlt
    rw [hresult, houtcome] at houtcome'
    rw [hget, hget', ← Result.outcome.inj (Option.some.inj houtcome')]
  · rw [List.getElem?_eq_none (by rw [h'.length]; exact hge),
      List.getElem?_eq_none (by rw [h.length]; exact hge)]

section Contained

variable (positive : 0 < capacity) (clock : Number) (level : Log.Level) (shell : Shell)
  (before : List Move) (request : Request) (later : List Move)

/-- A run that is not strict resolves to its report. -/
theorem reported_of_settled (lenient : request.strict = false) :
    let origin := (fresh positive clock level shell).after before
    let first := origin.receive (.settle request)
    let c := ofRequest origin request
    let s := first.after later
    (∀ moment, moment <+: later → (first.after moment).Dated) →
      (∀ i ∈ c.jobs, i ∉ s.unsettled) → s.queue = [] →
        ∃ report ended, c.answer? s = some (.ok report) ∧ c.Reported s report ∧
          c.Accounts request first later report ended := by
  intro origin first c s dated settled quiet
  obtain ⟨answer, hanswer⟩ := Option.ne_none_iff_exists'.mp
    (answer_of_settled positive clock level shell before request later settled quiet)
  obtain ⟨report, ended, answered⟩ :=
    answered_of_answer positive clock level shell before request later dated answer hanswer
  -- the answer of a run that is not strict is its report, failures or not
  have hok : answer = .ok report := by
    rw [answered.answer_eq, lenient]
    rfl
  rw [hok] at hanswer
  have htracked := (tracked_after positive clock level shell before request later).2
  exact ⟨report, ended, hanswer, htracked.answered report hanswer, answered.accounts⟩

/-- **Faults stay with their tasks.** Whatever the tasks return or throw and whatever the hooks
throw, at whatever level, while the clock shows a date: when all tasks of a run that is not strict
have settled and no work is left,

* the run resolves, and its report accounts for every task: one that has failed is recorded with the
  text of what it returned or threw;
* the slots in use are those of bodies in progress, none of which is one of the run's;
* the outcome of every task is what it is in a run that makes the same moves without the faults of
  its siblings: any of them may throw plain errors instead, and no hook throws. -/
theorem faults_contained (lenient : request.strict = false)
    (dated : ∀ moment, moment <+: later →
      ((((fresh positive clock level shell).after before).receive (.settle request)).after
        moment).Dated) :
    let origin := (fresh positive clock level shell).after before
    let first := origin.receive (.settle request)
    let c := ofRequest origin request
    let s := first.after later
    (∀ i ∈ c.jobs, i ∉ s.unsettled) → s.queue = [] →
      ∃ report ended, c.answer? s = some (.ok report) ∧
        c.Accounts request first later report ended ∧
        (s.active = s.bodies.length ∧ ∀ number ∈ s.bodies, number ∉ c.jobs) ∧
        ∀ faulty : List Nat, ∃ other,
          c.answer? ((origin.receive (.settle (request.tamed faulty))).after
              (later.map (Move.tamed (c.suspects faulty)))) = some (.ok other) ∧
            ∀ place, place ∉ faulty → other.tasks[place]? = report.tasks[place]? := by
  intro origin first c s settled quiet
  obtain ⟨report, ended, hanswer, hreported, haccounts⟩ := reported_of_settled positive clock level
    shell before request later lenient dated settled quiet
  obtain ⟨begun, admitted, hline⟩ : ∃ begun admitted, InLine capacity 0 s begun admitted := by
    have hafter := inLine_after positive clock level shell
      (before ++ .arrive (.settle request) :: later)
    rwa [after_append] at hafter
  refine ⟨report, ended, hanswer, haccounts,
    ⟨hline.held_of_quiet quiet, fun number hbody hmem => ?_⟩, fun faulty => ?_⟩
  · -- a body in progress has not settled
    refine settled number hmem ?_
    rw [hline.unsettled_of_quiet quiet]
    exact List.mem_append_left _ hbody
  · -- the run without faults goes in lockstep, under the same clock
    have hfirst := outline_receive_tamed origin request faulty
    have hcrew := ofRequest_tamed origin request faulty
    have hsame := outline_after_tamed hfirst later dated
    have hdated : ∀ moment, moment <+: later.map (Move.tamed (c.suspects faulty)) →
        ((origin.receive (.settle (request.tamed faulty))).after moment).Dated := by
      intro moment hmoment
      obtain ⟨early, hearly, rfl⟩ := List.prefix_map_iff.mp hmoment
      have htime := sameTime_of_outline (outline_after_tamed hfirst early fun moment hmoment =>
        dated moment (hmoment.trans hearly))
      exact (dated early hearly).congr htime
    -- so its tasks have settled as well, and it has a report
    have hsettled := reported_of_settled positive clock level shell before (request.tamed faulty)
      (later.map (Move.tamed (c.suspects faulty))) lenient hdated
    rw [hcrew] at hsettled
    obtain ⟨other, -, hother, hreported', -⟩ := hsettled
      (fun i hi => mt (unsettled_of_outline hsame).mp (settled i hi))
      ((queue_of_outline hsame).trans quiet)
    refine ⟨other, hother, fun place hplace => ?_⟩
    have hknown : c.suspects faulty (c.first + place) = false := by
      rw [suspects_add, ← Bool.not_eq_true, List.contains_iff_mem]
      exact hplace
    exact hreported.task_congr hreported' (getElem?_of_outline hsame hknown)

end Contained

/-- A task that throws an error that cannot be read, one that hands over a value that cannot be
used, and one that takes some time. The hooks throw as well, each of them at another task. -/
def oddTasks : Request :=
  { label := "run"
    hooks :=
      { onStart := some { throws := fun place => if place = 0 then some (.symbol "s") else none }
        onEnd := some { throws := fun place => if place = 1 then some .revoked else none } }
    tasks :=
      [{ name := none, body := .immediate (.thrown (.unreadable "no")) },
       { name := some "b", body := .prompt (.returned .revoked) },
       { name := some "c", body := .timed 5 (.returned .absent) none }] }

/-- The tasks share one slot, and the timer of the last one fires. -/
def oneByOne : List Move :=
  List.replicate 6 .tick ++ .arrive (.fire 0) :: List.replicate 3 .tick

theorem faults_contained_oddTasks :
    let origin := (fresh Nat.one_pos 0 .debug []).after []
    let first := origin.receive (.settle oddTasks)
    let c := ofRequest origin oddTasks
    let s := first.after oneByOne
    (∀ moment, moment <+: oneByOne → (first.after moment).Dated) ∧
      (∀ i ∈ c.jobs, i ∉ s.unsettled) ∧ s.queue = [] ∧
      ∃ report ended, c.answer? s = some (.ok report) ∧
        report.failures
          = ["[object Error]", "Cannot perform 'get' on a proxy that has been revoked"] ∧
        c.Accounts oddTasks first oneByOne report ended ∧
        ∃ other,
          c.answer? ((origin.receive (.settle (oddTasks.tamed [0, 1]))).after
              (oneByOne.map (Move.tamed (c.suspects [0, 1])))) = some (.ok other) ∧
            other.tasks[2]? = report.tasks[2]? := by
  intro origin first c s
  have dated : ∀ moment, moment <+: oneByOne → (first.after moment).Dated := by
    have hall : ∀ moment ∈ oneByOne.inits, (first.after moment).Dated := by decide +kernel
    exact fun moment hmoment => hall moment ((List.mem_inits ..).mpr hmoment)
  have settled : ∀ i ∈ c.jobs, i ∉ s.unsettled := by decide +kernel
  have quiet : s.queue = [] := by decide +kernel
  obtain ⟨report, ended, hanswer, haccounts, -, hothers⟩ :=
    faults_contained Nat.one_pos 0 .debug [] [] oddTasks oneByOne rfl dated settled quiet
  -- the first two tasks are the suspects, the third is the bystander
  obtain ⟨other, hother, hsame⟩ := hothers [0, 1]
  have failures : (c.answer? s).bind
      (fun answer => match answer with
        | .ok report => some report.failures
        | .error _ => none)
      = some ["[object Error]", "Cannot perform 'get' on a proxy that has been revoked"] := by
    decide +kernel
  rw [hanswer] at failures
  exact ⟨dated, settled, quiet, report, ended, hanswer, Option.some.inj failures, haccounts, other,
    hother, hsame 2 (by decide)⟩

end Crew

end BoundedJobs
