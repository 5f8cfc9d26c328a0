import BoundedJobs.Proofs.Runner.Outcomes

/-!
# What is told of a job

What observers have been told of a job, from its submission on, is its *account*. It can be read
off the phase of the job: nothing while the job waits or is granted its slot; the call of the start
hook and the entry of the body while the body is in progress or has just settled; and the call of
the end hook besides, once the job has come to an outcome (`Phase.Recorded`). Nothing is said of
jobs that have crashed.

* `State.account` — what has been told of a job. A piece of work adds to the account of the job that
  it is about, and to no other (`Opening.account`, `Noted.account`);
* `Request.history` — all that is told of a task of a run, in two parts: `Request.welcome` and
  `Request.farewell`;
* `Crew.Chronicled` — the accounts of a run's jobs are as their phases say. A run is chronicled from
  its submission on (`Crew.chronicled_after`), because stimuli tell nothing and move no body but
  from being in progress to having settled (`receive_phase`).

So no body is entered twice and no hook called twice for one task, whatever happens.
-/

namespace BoundedJobs

/-- The job that an event is about. A log line is about none. -/
def Event.job? : Event → Option Nat
  | logged _ => none
  | started job .. | ended job .. | entered job .. | called job .. => some job

/-- What is told of a task until its body is entered. -/
def Request.welcome (request : Request) (number place : Nat) (task : Task) (aborted : Bool) :
    List Event :=
  Hook.told request.hooks.onStart (.started number request.label (task.title place))
    ++ [.entered number request.label place aborted]

/-- What is told of a task when it has come to its outcome. -/
def Request.farewell (request : Request) (number place : Nat) (task : Task) (outcome : Outcome) :
    List Event :=
  Hook.told request.hooks.onEnd (.ended number request.label (task.title place) outcome)

/-- All that is told of a task. -/
def Request.history (request : Request) (number place : Nat) (task : Task) (aborted : Bool)
    (outcome : Outcome) : List Event :=
  request.welcome number place task aborted ++ request.farewell number place task outcome

/-- What has been told of a job in a phase, in terms of what is told until its body is entered and
of what is told at its end. -/
def Phase.Recorded (phase : Phase) (welcome : Bool → List Event) (farewell : Outcome → List Event)
    (account : List Event) : Prop :=
  match phase with
  | waiting | granted => account = []
  | running _ | settled .. => ∃ aborted, account = welcome aborted
  | leaving result | finished result =>
    ∀ outcome, result = .outcome outcome → ∃ aborted, account = welcome aborted ++ farewell outcome

/-- A stimulus leaves a phase as it is, or lets the body settle; a direct call may have come to its
result by that. -/
def Phase.Hears (old new : Phase) : Prop :=
  new = old ∨ ∃ times ending, old = .running times ∧
    (new = .settled times ending ∨ new = .leaving (.ofCall times ending))

theorem Phase.hears_ended (job : Job) (times : Times) (ending : Ending) :
    (Phase.running times).Hears (job.ended times ending) := by
  refine Or.inr ⟨times, ending, rfl, ?_⟩
  unfold Job.ended
  split
  · exact Or.inl rfl
  · exact Or.inr rfl

theorem Phase.Hears.recorded {old new : Phase} (h : old.Hears new) {welcome : Bool → List Event}
    {farewell : Outcome → List Event} {account : List Event}
    (recorded : old.Recorded welcome farewell account) : new.Recorded welcome farewell account := by
  rcases h with rfl | ⟨times, ending, rfl, rfl | rfl⟩
  · exact recorded
  · exact recorded
  · -- what a direct call hands back is no outcome
    intro outcome houtcome
    cases ending <;> exact absurd houtcome (by simp [Result.ofCall])

namespace State

variable {s t origin : State} {number : Nat} {job : Job} {told : List Event}

/-- What observers have been told of a job. -/
def account (s : State) (number : Nat) : List Event := s.events.filter (·.job? = some number)

theorem account_eq_story (s : State) (number : Nat) :
    s.account number = s.story.filter (·.job? = some number) := by
  unfold account story
  rw [List.filter_filter]
  refine List.filter_congr fun event _ => ?_
  -- what is about a job is no log line
  cases event with
  | logged line => rfl
  | started | ended | entered | called => exact (Bool.and_true _).symm

theorem account_congr (h : t.story = s.story) (number : Nat) :
    t.account number = s.account number := by
  rw [account_eq_story, account_eq_story, h]

/-- What is told of one job is told of no other. -/
theorem Beside.account (h : Beside s t told) (about : ∀ event ∈ told, event.job? = some number)
    (i : Nat) : t.account i = s.account i ++ if i = number then told else [] := by
  rw [account_eq_story, account_eq_story, h.story, List.filter_append]
  congr 1
  split
  · next heq =>
    rw [heq, List.filter_eq_self]
    exact fun event hevent => decide_eq_true (about event hevent)
  · next hne =>
    rw [List.filter_eq_nil_iff]
    intro event hevent
    rw [about event hevent, decide_eq_true_eq]
    exact fun heq => hne (Option.some.inj heq).symm

/-! ## What each piece of work tells -/

theorem told_about {hook : Option Hook} {event : Event} (h : event.job? = some number) :
    ∀ e ∈ Hook.told hook event, e.job? = some number := by
  intro e he
  unfold Hook.told at he
  split at he
  · rw [List.mem_singleton.mp he]
    exact h
  · exact absurd he List.not_mem_nil

theorem greeting_about (s : State) (number : Nat) (job : Job) :
    ∀ event ∈ s.greeting number job, event.job? = some number := by
  unfold greeting
  split
  · exact told_about rfl
  · intro event hevent
    rw [List.mem_singleton.mp hevent]
    rfl

theorem entry_about (s : State) (number : Nat) (job : Job) :
    ∀ event ∈ s.greeting number job ++ [s.entry number job], event.job? = some number := by
  intro event hevent
  rcases List.mem_append.mp hevent with hmem | hmem
  · exact greeting_about s number job event hmem
  · rw [List.mem_singleton.mp hmem]
    rfl

/-- The end of a body is told of its job, as that of the outcome the job comes to. -/
theorem Noted.account {times : Times} {ending : Ending} {result : Result}
    (h : Noted s number job times ending t result) :
    ∃ told, (∀ i, t.account i = s.account i ++ if i = number then told else []) ∧
      ∀ run outcome, job.run? = some run → result = .outcome outcome →
        told = s.farewell number run job outcome := by
  cases h with
  | call direct =>
    refine ⟨[], fun i => ?_, fun run outcome task => absurd (direct.symm.trans task) (by simp)⟩
    rw [ite_self, List.append_nil]
  | @outcome run _ task beside =>
    refine ⟨_, beside.account (told_about rfl), fun run' outcome' task' houtcome => ?_⟩
    obtain rfl := Option.some.inj (task.symm.trans task')
    rw [Result.outcome.inj houtcome]
  | @crashed run _ fault told task beside told_eq =>
    -- what a crash tells is told of the job, too, but nothing more is said about it
    refine ⟨told, beside.account ?_, fun run' outcome' _ houtcome => absurd houtcome (by simp)⟩
    rcases told_eq with rfl | rfl
    · exact fun event hevent => absurd hevent List.not_mem_nil
    · exact told_about rfl

/-- The start of a body is told of its job, as the phase in which the job is placed asks for. -/
theorem Opening.account {phase : Phase} (h : Opening s number job t phase) :
    ∃ told, (∀ i, t.account i = s.account i ++ if i = number then told else []) ∧
      ∀ run, job.run? = some run →
        phase.Recorded
          (fun aborted => Hook.told (s.startHook run) (.started number job.label job.name)
            ++ [.entered number job.label job.place aborted])
          (s.farewell number run job) told := by
  have hgreeting : ∀ run, job.run? = some run → s.greeting number job ++ [s.entry number job]
      = Hook.told (s.startHook run) (.started number job.label job.name)
        ++ [.entered number job.label job.place (s.isAborted job)] := by
    intro run task
    unfold greeting entry
    rw [task]
  cases h with
  | @barred _ fault told beside _ told_eq =>
    refine ⟨told, beside.account ?_, fun run _ outcome hcrashed => absurd hcrashed (by simp)⟩
    rcases told_eq with rfl | rfl
    · exact fun event hevent => absurd hevent List.not_mem_nil
    · exact greeting_about s number job
  | @running mid lasts beside =>
    refine ⟨_, fun i => ?_, fun run task => ⟨s.isAborted job, hgreeting run task⟩⟩
    rw [account_congr (arm_story mid number job.body)]
    exact beside.account (entry_about s number job) i
  | settled allowed beside =>
    refine ⟨_, beside.account (entry_about s number job), fun run task => ?_⟩
    rw [ended_of_run? (by rw [task]; simp)]
    exact ⟨s.isAborted job, hgreeting run task⟩
  | @thrown mid _ value result body beside _ noted =>
    obtain ⟨last, hlast, hfarewell⟩ := noted.account
    refine ⟨s.greeting number job ++ [s.entry number job] ++ last, fun i => ?_,
      fun run task outcome houtcome => ⟨s.isAborted job, ?_⟩⟩
    · rw [hlast i, beside.account (entry_about s number job) i, List.append_assoc]
      split <;> rfl
    · rw [hgreeting run task, hfarewell run outcome task houtcome]
      -- the hooks are those of before
      have hhook : mid.endHook run = s.endHook run := by
        unfold endHook
        rw [beside.runs]
      unfold State.farewell
      rw [hhook]

/-- A tick adds to the accounts of jobs that have been submitted, and to no others. -/
theorem Ticked.account (h : Ticked s t) (i : Nat) :
    t.account i = s.account i ∨ i < s.jobs.length := by
  -- what a tick tells is about the one job that it works on, which is there
  have hown : ∀ {number : Nat} {job : Job} {told : List Event}, s.jobs[number]? = some job →
      t.account i = s.account i ++ (if i = number then told else []) →
      t.account i = s.account i ∨ i < s.jobs.length := by
    intro number job told hj haccount
    split at haccount
    · next heq =>
      right
      rw [heq]
      exact (List.getElem?_eq_some_iff.mp hj).1
    · exact Or.inl (haccount.trans (List.append_nil _))
  cases h with
  | quiet => exact Or.inl rfl
  | started _ job_eq _ opening =>
    obtain ⟨told, haccount, -⟩ := opening.account
    exact hown job_eq (haccount i)
  | bounced _ job_eq _ bounced =>
    have haccount := bounced.beside.account (entry_about _ _ _) i
    exact hown job_eq ((account_congr (passOn_keeps _).2.2.1 i).trans haccount)
  | finished _ job_eq _ noted =>
    obtain ⟨told, haccount, -⟩ := noted.account
    exact hown job_eq (haccount i)
  | released =>
    exact Or.inl (account_congr ((reportBack_keeps _ _ _).2.1.trans (passOn_keeps _).2.2.1) i)
  | concluded => exact Or.inl (account_congr (conclude_keeps _ _).1 i)

/-- Nothing is told of a job before it has been submitted. -/
theorem account_eq_nil_after {capacity : Nat} (positive : 0 < capacity) (clock : Number)
    (level : Log.Level) (shell : Shell) (moves : List Move) (i : Nat)
    (unborn : ((fresh positive clock level shell).after moves).jobs.length ≤ i) :
    ((fresh positive clock level shell).after moves).account i = [] := by
  -- on the moves: a job that is not there yet was not there before
  induction moves using List.reverseRecOn with
  | nil => rfl
  | append_singleton moves m ih =>
    rw [after_concat] at unborn ⊢
    cases m with
    | arrive stimulus =>
      change ((State.after _ moves).receive stimulus).jobs.length ≤ i at unborn
      have hlength := congrArg List.length
        (receive_unphased ((fresh positive clock level shell).after moves) stimulus)
      rw [List.length_map, List.length_append, List.length_map] at hlength
      exact (account_congr (receive_story _ stimulus) i).trans (ih (by omega))
    | tick =>
      obtain ⟨begun, admitted, h⟩ := inLine_after positive clock level shell moves
      change (State.after _ moves).tick.jobs.length ≤ i at unborn
      have hlength := congrArg List.length h.ticked.unphased
      rw [List.length_map, List.length_map] at hlength
      rw [hlength] at unborn
      exact ((h.ticked.account i).resolve_right (Nat.not_lt.mpr unborn)).trans (ih unborn)

/-! ## Stimuli -/

/-- What a stimulus does to phases: a body that is in progress may settle, and newcomers are granted
a slot or wait for one. -/
def Heard (s t : State) : Prop :=
  s.jobs.length ≤ t.jobs.length ∧
    ∀ (number : Nat) (new : Job), t.jobs[number]? = some new →
      (∃ old, s.jobs[number]? = some old ∧ old.phase.Hears new.phase) ∨
        s.jobs.length ≤ number ∧ (new.phase = .granted ∨ new.phase = .waiting)

theorem Heard.settled (h : Heard s t) {times : Times} {ending : Ending}
    (job_eq : t.jobs[number]? = some job) (running : job.phase = .running times) :
    Heard s (t.place number (job.ended times ending)) := by
  refine ⟨Nat.le_trans h.1 (Nat.le_of_eq (List.length_modify ..).symm), fun i new hnew => ?_⟩
  rcases getElem?_modify_cases hnew with ⟨rfl, old, hold, rfl⟩ | ⟨-, hsame⟩
  · obtain rfl := Option.some.inj (job_eq.symm.trans hold)
    -- a body in progress was so before the stimulus, and is no newcomer's
    rcases h.2 i job job_eq with ⟨first, hfirst, hsame | ⟨_, _, -, hover⟩⟩ | ⟨-, hphase⟩
    · refine Or.inl ⟨first, hfirst, ?_⟩
      rw [hsame.symm.trans running]
      exact Phase.hears_ended job times ending
    · rw [running] at hover
      exact absurd hover (by simp)
    · rw [running] at hphase
      exact absurd hphase (by simp)
  · exact h.2 i new hsame

theorem Heard.submitJob (h : Heard s t) (job : Job) : Heard s (t.submitJob job) := by
  obtain ⟨phase, hjobs, hphase⟩ := submitJob_jobs t job
  refine ⟨?_, fun i new hnew => ?_⟩
  · rw [hjobs, List.length_append]
    exact Nat.le_add_right_of_le h.1
  · rw [hjobs] at hnew
    rcases getElem?_concat_cases hnew with ⟨-, hold⟩ | ⟨rfl, rfl⟩
    · exact h.2 i new hold
    · exact Or.inr ⟨h.1, hphase⟩

/-- **What a stimulus does to phases.** -/
theorem receive_phase (s : State) (stimulus : Stimulus) : Heard s (s.receive stimulus) := by
  refine receive_induction (P := Heard s) ?_ ?_ stimulus
  · intro t u step ht
    cases step with
    | nudged nudge =>
      cases nudge with
      | aside ha =>
        unfold Heard
        rw [ha.jobs]
        exact ht
      | settled job_eq running => exact ht.settled job_eq running
    | opened | concluding => exact ht
    | submitted => exact ht.submitJob _
  · exact ⟨Nat.le_refl _, fun number new hnew => Or.inl ⟨new, hnew, Or.inl rfl⟩⟩

end State

/-! ## The accounts of a run -/

namespace Crew

open State

variable {c : Crew} {request : Request} {s t : State} {number : Nat} {job : Job}
  {capacity begun admitted spare : Nat}

/-- The job at a place of a run is that of the task at the place, and what has been told of it is
as its phase says. -/
structure TaskChronicled (c : Crew) (request : Request) (place : Nat) (task : Task) (job : Job)
    (account : List Event) : Prop where
  label_eq : job.label = request.label
  place_eq : job.place = place
  name_eq : job.name = task.title place
  recorded : job.phase.Recorded (request.welcome (c.first + place) place task)
    (request.farewell (c.first + place) place task) account

/-- The accounts of the jobs of a run are as their phases say. -/
def Chronicled (c : Crew) (request : Request) (s : State) : Prop :=
  ∀ (place : Nat) (task : Task), request.tasks[place]? = some task →
    ∃ job, s.jobs[c.first + place]? = some job ∧
      c.TaskChronicled request place task job (s.account (c.first + place))

theorem Chronicled.congr (h : c.Chronicled request s) (jobs : t.jobs = s.jobs)
    (story : t.story = s.story) : c.Chronicled request t := by
  intro place task htask
  rw [jobs, account_congr story]
  exact h place task htask

/-- A job moves on to a phase, and something is told of it. -/
theorem Chronicled.place (h : c.Chronicled request s) {phase : Phase} {told : List Event}
    (hj : s.jobs[number]? = some job) (jobs : t.jobs = s.jobs)
    (account : ∀ i, t.account i = s.account i ++ if i = number then told else [])
    (recorded : ∀ place task, request.tasks[place]? = some task → number = c.first + place →
      c.TaskChronicled request place task job (s.account number) →
      phase.Recorded (request.welcome number place task) (request.farewell number place task)
        (s.account number ++ told)) :
    c.Chronicled request (t.place number phase) := by
  intro place task htask
  obtain ⟨old, hold, chronicled⟩ := h place task htask
  have haccount : (t.place number phase).account (c.first + place) = t.account (c.first + place) :=
    rfl
  rw [haccount, account]
  by_cases heq : number = c.first + place
  · -- what is told of the job itself is what its next phase has on record
    subst heq
    obtain rfl := Option.some.inj (hold.symm.trans hj)
    refine ⟨{ old with phase }, ?_, chronicled.label_eq, chronicled.place_eq, chronicled.name_eq,
      ?_⟩
    · change (t.jobs.modify _ _)[_]? = _
      rw [jobs, List.getElem?_modify_eq, hold]
      rfl
    · rw [if_pos rfl]
      exact recorded place task htask rfl chronicled
  · refine ⟨old, ?_, ?_⟩
    · change (t.jobs.modify _ _)[_]? = _
      rw [jobs, List.getElem?_modify_ne _ _ heq]
      exact hold
    · rw [if_neg (Ne.symm heq), List.append_nil]
      exact chronicled

/-- A job moves on to a phase, and nothing is told of it. -/
theorem Chronicled.move (h : c.Chronicled request s) {phase : Phase}
    (hj : s.jobs[number]? = some job) (jobs : t.jobs = s.jobs) (story : t.story = s.story)
    (recorded : ∀ welcome farewell, job.phase.Recorded welcome farewell (s.account number) →
      phase.Recorded welcome farewell (s.account number)) :
    c.Chronicled request (t.place number phase) := by
  have haccount : ∀ i, t.account i = s.account i ++ if i = number then [] else [] := by
    intro i
    rw [ite_self, List.append_nil]
    exact account_congr story i
  refine h.place hj jobs haccount ?_
  rintro place task _ rfl chronicled
  rw [List.append_nil]
  exact recorded _ _ chronicled.recorded

theorem Chronicled.receive (h : c.Chronicled request s) (stimulus : Stimulus) :
    c.Chronicled request (s.receive stimulus) := by
  intro place task htask
  obtain ⟨job, hj, chronicled⟩ := h place task htask
  obtain ⟨job', hj', hsame⟩ := exists_job_after (receive_unphased s stimulus) hj
  refine ⟨job', hj', ?_⟩
  rw [account_congr (receive_story s stimulus)]
  have hheard : job.phase.Hears job'.phase := by
    rcases (receive_phase s stimulus).2 _ _ hj' with ⟨old, hold, hhears⟩ | ⟨hle, -⟩
    · obtain rfl := Option.some.inj (hj.symm.trans hold)
      exact hhears
    · exact absurd (List.getElem?_eq_some_iff.mp hj).1 (Nat.not_lt.mpr hle)
  exact ⟨(congrArg Job.label hsame).trans chronicled.label_eq,
    (congrArg Job.place hsame).trans chronicled.place_eq,
    (congrArg Job.name hsame).trans chronicled.name_eq, hheard.recorded chronicled.recorded⟩

theorem CarriesOut.startHook (h : c.CarriesOut request s) :
    s.startHook c.run = request.hooks.onStart := by
  obtain ⟨run, hrun, hhooks, -⟩ := h.run
  unfold State.startHook
  rw [hrun]
  exact congrArg Hooks.onStart hhooks

/-- What is told at the end of a task is what the request asks for. -/
theorem CarriesOut.farewell (h : c.CarriesOut request s) {place : Nat} {task : Task}
    {account : List Event} (chronicled : c.TaskChronicled request place task job account)
    (outcome : Outcome) :
    s.farewell (c.first + place) c.run job outcome
      = request.farewell (c.first + place) place task outcome := by
  obtain ⟨run, hrun, hhooks, -⟩ := h.run
  unfold State.farewell Request.farewell State.endHook
  rw [hrun, chronicled.label_eq, chronicled.name_eq, ← hhooks]
  rfl

theorem CarriesOut.run?_eq (h : c.CarriesOut request s) {place : Nat} {task : Task}
    (task_eq : request.tasks[place]? = some task) (hj : s.jobs[c.first + place]? = some job) :
    job.run? = some c.run := by
  refine (h.mem_iff _ job hj).mpr (mem_jobs.mpr ⟨Nat.le_add_right _ _, ?_⟩)
  rw [h.size]
  exact Nat.add_lt_add_left (List.getElem?_eq_some_iff.mp task_eq).1 _

theorem Chronicled.started (h : c.Chronicled request s) (carriesOut : c.CarriesOut request s)
    (hj : s.jobs[number]? = some job) (granted : job.phase = .granted) {phase : Phase}
    (opening : Opening s.popped number job t phase) :
    c.Chronicled request (t.place number phase) := by
  obtain ⟨told, haccount, hrecorded⟩ := opening.account
  refine h.place hj opening.sameLine.jobs haccount ?_
  rintro place task htask rfl chronicled
  -- nothing has been told of the job before
  have hnone : s.account (c.first + place) = [] := by
    have hrec := chronicled.recorded
    rwa [granted] at hrec
  have hrec := hrecorded c.run (carriesOut.run?_eq htask hj)
  have hwelcome : (fun aborted => Hook.told (s.popped.startHook c.run)
        (.started (c.first + place) job.label job.name)
        ++ [.entered (c.first + place) job.label job.place aborted])
      = request.welcome (c.first + place) place task := by
    funext aborted
    rw [show s.popped.startHook c.run = request.hooks.onStart from carriesOut.startHook,
      chronicled.label_eq, chronicled.name_eq, chronicled.place_eq]
    rfl
  have hfarewell : s.popped.farewell (c.first + place) c.run job
      = request.farewell (c.first + place) place task :=
    funext (carriesOut.farewell chronicled)
  rw [hnone, List.nil_append]
  rwa [hwelcome, hfarewell] at hrec

theorem Chronicled.finished (h : c.Chronicled request s) (carriesOut : c.CarriesOut request s)
    (hj : s.jobs[number]? = some job) {times : Times} {ending : Ending} {result : Result}
    (settled : job.phase = .settled times ending)
    (noted : Noted s.popped number job times ending t result) :
    c.Chronicled request (t.place number (.leaving result)) := by
  obtain ⟨told, haccount, htold⟩ := noted.account
  refine h.place hj noted.sameLine.jobs haccount ?_
  rintro place task htask rfl chronicled outcome houtcome
  have hrec := chronicled.recorded
  rw [settled] at hrec
  obtain ⟨aborted, hwelcome⟩ := hrec
  have hfarewell := htold c.run outcome (carriesOut.run?_eq htask hj) houtcome
  refine ⟨aborted, ?_⟩
  rw [hwelcome, hfarewell]
  exact congrArg _ (carriesOut.farewell chronicled outcome)

/-- A slot that passes on tells nobody anything. -/
theorem Chronicled.passOn (h : c.Chronicled request s)
    (line : InLine capacity spare s begun admitted) : c.Chronicled request s.passOn := by
  cases hw : s.slots.waiters with
  | nil =>
    rw [passOn_of_idle hw]
    exact h.congr rfl rfl
  | cons next others =>
    obtain ⟨job, hnext, hphase⟩ := line.job_of_waiter hw
    rw [passOn_of_waiting hw]
    refine h.move hnext rfl rfl fun welcome farewell recorded => ?_
    rw [hphase] at recorded
    exact recorded

/-- A direct call that is over at once is no task of the run. -/
theorem Chronicled.bounced (h : c.Chronicled request s) (carriesOut : c.CarriesOut request s)
    (line : InLine capacity 0 s begun admitted)
    (queue : s.queue = .start number :: s.popped.queue) (hj : s.jobs[number]? = some job)
    (granted : job.phase = .granted) {value : Value}
    (bounced : Bounced s.popped number job value t) (result : Result) :
    c.Chronicled request (t.place number (.finished result)).passOn := by
  have hplaced : c.Chronicled request (t.place number (.finished result)) := by
    refine h.place hj bounced.sameLine.jobs (bounced.beside.account (entry_about _ _ _)) ?_
    rintro place task htask rfl -
    exact absurd (bounced.direct.symm.trans (carriesOut.run?_eq htask hj)) (by simp)
  exact hplaced.passOn (line.gaveUp queue hj granted bounced result)

theorem Chronicled.released (h : c.Chronicled request s)
    (line : InLine capacity 0 s begun admitted) {result : Result}
    (queue : s.queue = .release number :: s.popped.queue) (hj : s.jobs[number]? = some job)
    (leaving : job.phase = .leaving result) :
    c.Chronicled request
      (((s.popped.place number (.finished result)).passOn).reportBack job result) := by
  have hplaced : c.Chronicled request (s.popped.place number (.finished result)) := by
    refine h.move hj rfl rfl fun welcome farewell recorded => ?_
    rw [leaving] at recorded
    exact recorded
  obtain ⟨jobs, story, -⟩ :=
    reportBack_keeps (s.popped.place number (.finished result)).passOn job result
  exact (hplaced.passOn (line.leave queue hj leaving)).congr jobs story

/-- **A tick keeps the accounts of a run.** -/
theorem Chronicled.ticked (h : c.Chronicled request s) (carriesOut : c.CarriesOut request s)
    (line : InLine capacity 0 s begun admitted) (ticked : Ticked s t) :
    c.Chronicled request t := by
  cases ticked with
  | quiet => exact h
  | started _ job_eq granted opening => exact h.started carriesOut job_eq granted opening
  | bounced queue job_eq granted bounced =>
    exact h.bounced carriesOut line queue job_eq granted bounced _
  | finished _ job_eq settled noted => exact h.finished carriesOut job_eq settled noted
  | released queue job_eq leaving => exact h.released line queue job_eq leaving
  | @concluded number _ =>
    exact h.congr (conclude_sameLine s.popped number).jobs (conclude_keeps s.popped number).1

/-- A run that has just been opened has nothing to tell. -/
theorem chronicled_receive (request : Request)
    (untold : ∀ i, s.jobs.length ≤ i → s.account i = []) :
    (ofRequest s request).Chronicled request (s.receive (.settle request)) := by
  intro place task htask
  have hget : ((s.receive (.settle request)).jobs.map Job.unphased)[s.jobs.length + place]?
      = some (s.nextJob request task place) := by
    rw [receive_unphased, List.getElem?_append_right (by rw [List.length_map]; omega),
      List.length_map, Nat.add_sub_cancel_left]
    exact getElem?_newcomers s htask
  rw [List.getElem?_map] at hget
  obtain ⟨job, hj, hsame⟩ := Option.map_eq_some_iff.mp hget
  have hnone : (s.receive (.settle request)).account (s.jobs.length + place) = [] :=
    (account_congr (receive_story s _) _).trans (untold _ (Nat.le_add_right _ _))
  refine ⟨job, hj, (congrArg Job.label hsame :), (congrArg Job.place hsame :),
    (congrArg Job.name hsame :), ?_⟩
  -- a newcomer is granted a slot or waits for one
  rcases (receive_phase s (.settle request)).2 _ _ hj with ⟨old, hold, -⟩ | ⟨-, hphase⟩
  · exact absurd (List.getElem?_eq_some_iff.mp hold).1 (by omega)
  · rcases hphase with hphase | hphase <;> rw [hphase] <;> exact hnone

/-- **A run is chronicled through everything that happens after its submission.** -/
theorem chronicled_after (positive : 0 < capacity) (clock : Number) (level : Log.Level)
    (shell : Shell) (before : List Move) (request : Request) (later : List Move) :
    let origin := (fresh positive clock level shell).after before
    (ofRequest origin request).Chronicled request
      ((origin.receive (.settle request)).after later) := by
  intro origin
  induction later using List.reverseRecOn with
  | nil =>
    exact chronicled_receive request (account_eq_nil_after positive clock level shell before)
  | append_singleton later m ih =>
    have hcarries := (tracked_after positive clock level shell before request later).1
    rw [after_concat]
    cases m with
    | arrive stimulus => exact ih.receive stimulus
    | tick =>
      obtain ⟨begun, admitted, hline⟩ := inLine_after positive clock level shell
        (before ++ .arrive (.settle request) :: later)
      rw [after_append] at hline
      exact ih.ticked hcarries hline hline.ticked

end Crew

end BoundedJobs
