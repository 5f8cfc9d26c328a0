import BoundedJobs.Proofs.Runner.Watch

/-!
# Reports

A report holds two views of the same run, which separate code puts together: the outcomes in the
order of the tasks, and the messages of the failures in the order in which the tasks ended. That
they agree is carried by a list that the program does not keep, the *ledger* of the run
(`Crew.Ledger`): the places of the tasks that have ended, each with the ending of its body, in the
order in which they ended. While no line about the run has been refused,

* the tasks in the ledger are those that have come to a result, and the result tells the ending;
* the messages that the run has kept are those of the endings in the ledger, in its order;
* the hook has been told of the tasks in the ledger, in its order.

A run is only concluded when all its tasks have given their slots back, and it has an answer before
that if one of them crashed (`Crew.Tracked`). So a run that resolves has all its tasks in the
ledger, and `report_of_answer` reads the report off it.
-/

namespace BoundedJobs

namespace State

variable {s t : State} {moves : List Move} {first second number : Nat} {ending : Ending}

/-- The result that a job has come to. -/
def result? (s : State) (number : Nat) : Option Result := (s.exit? number).map Prod.fst

/-- The first job had come to its result when the second had not, at some moment of a sequence of
moves. -/
def EndsBefore (s : State) (moves : List Move) (first second : Nat) : Prop :=
  ∃ moment, moment <+: moves ∧
    (s.after moment).result? first ≠ none ∧ (s.after moment).result? second = none

/-- The body of a job settled with an ending, at some moment of a sequence of moves. -/
def SettlesWithin (s : State) (moves : List Move) (number : Nat) (ending : Ending) : Prop :=
  ∃ moment, moment <+: moves ∧ (s.after moment).Settles number ending

theorem EndsBefore.append (h : s.EndsBefore moves first second) (more : List Move) :
    s.EndsBefore (moves ++ more) first second := by
  obtain ⟨moment, hprefix, hends⟩ := h
  exact ⟨moment, hprefix.trans (List.prefix_append moves more), hends⟩

theorem SettlesWithin.append (h : s.SettlesWithin moves number ending) (more : List Move) :
    s.SettlesWithin (moves ++ more) number ending := by
  obtain ⟨moment, hprefix, hsettles⟩ := h
  exact ⟨moment, hprefix.trans (List.prefix_append moves more), hsettles⟩

theorem EndsBefore.ne (h : s.EndsBefore moves first second) : first ≠ second := by
  rintro rfl
  obtain ⟨moment, -, hfirst, hsecond⟩ := h
  exact hfirst hsecond

/-! ## Runners in order -/

/-- A runner in order, on which runs may be submitted: its jobs are in line and belong to runs that
there are, its bodies end as they say, and what it has told is about jobs that there are. -/
structure Regular (capacity : Nat) (s : State) : Prop where
  inLine : ∃ begun admitted, InLine capacity 0 s begun admitted
  enrolled : s.Enrolled
  sound : Sound s
  farewells : ∀ i ∈ s.farewells, i < s.jobs.length

theorem Regular.move {capacity : Nat} (h : s.Regular capacity) (m : Move) :
    (s.move m).Regular capacity := by
  obtain ⟨begun, admitted, hline⟩ := h.inLine
  cases m with
  | arrive stimulus =>
    obtain ⟨admitted', hnext⟩ := hline.receive stimulus
    exact ⟨⟨begun, admitted', hnext⟩, h.enrolled.receive stimulus, h.sound.receive stimulus,
      farewells_lt_receive h.farewells stimulus⟩
  | tick =>
    exact ⟨hline.tick, h.enrolled.ticked hline.ticked, h.sound.ticked hline.ticked,
      hline.ticked.farewells_lt h.farewells⟩

/-- **A runner stays in order**, whatever happens to it. -/
theorem Regular.after {capacity : Nat} (h : s.Regular capacity) (moves : List Move) :
    (s.after moves).Regular capacity := by
  induction moves generalizing s with
  | nil => exact h
  | cons m moves ih => exact ih (h.move m)

theorem regular_after {capacity : Nat} (positive : 0 < capacity) (clock : Number)
    (level : Log.Level) (shell : Shell) (moves : List Move) :
    ((fresh positive clock level shell).after moves).Regular capacity :=
  ⟨inLine_after positive clock level shell moves, enrolled_after positive clock level shell moves,
    sound_after positive clock level shell moves,
    farewells_lt_after positive clock level shell moves⟩

end State

namespace Crew

open State

variable {c : Crew} {request : Request} {s t first : State} {moves : List Move} {m : Move}
  {capacity begun admitted : Nat}

/-- No line about the end or the start of a task has been refused. -/
def Clean (c : Crew) (s : State) : Prop :=
  ∀ i ∈ c.jobs, ∀ fault, s.result? i ≠ some (.crashed fault)

/-- The ledger of a run: the places of the tasks that have ended during a sequence of moves, each
with the ending of its body, in the order in which they ended. -/
structure Ledger (c : Crew) (request : Request) (first : State) (moves : List Move)
    (ended : List (Nat × Ending)) : Prop where
  mem_iff : ∀ place, place ∈ ended.map Prod.fst ↔
    place < c.size ∧ (first.after moves).result? (c.first + place) ≠ none
  order : (ended.map Prod.fst).Pairwise fun a b =>
    first.EndsBefore moves (c.first + a) (c.first + b)
  settles : ∀ entry ∈ ended, first.SettlesWithin moves (c.first + entry.1) entry.2
  tells : ∀ entry ∈ ended, ∃ task outcome, request.tasks[entry.1]? = some task ∧
    (first.after moves).result? (c.first + entry.1) = some (.outcome outcome) ∧
    task.body.Allows entry.2 ∧ outcome.Tells task entry.1 entry.2
  failures : c.failures? (first.after moves) = some (ended.filterMap (·.2.failure?))
  farewells : request.hooks.onEnd.isSome = true →
    c.farewells (first.after moves) = ended.map (c.first + ·.1)

theorem first_add_mem {place : Nat} (lt : place < c.size) : c.first + place ∈ c.jobs :=
  mem_jobs.mpr ⟨Nat.le_add_right _ _, Nat.add_lt_add_left lt _⟩

theorem exists_place {i : Nat} (mem : i ∈ c.jobs) :
    ∃ place, place < c.size ∧ i = c.first + place := by
  have hplace := mem_jobs.mp mem
  exact ⟨i - c.first, by omega, by omega⟩

/-- A move after which the run has seen no more endings leaves the ledger as it is. -/
theorem Ledger.keep {ended : List (Nat × Ending)} (h : c.Ledger request first moves ended)
    (results : ∀ i ∈ c.jobs,
      (first.after (moves ++ [m])).result? i = (first.after moves).result? i)
    (failures : c.failures? (first.after (moves ++ [m])) = c.failures? (first.after moves))
    (farewells : c.farewells (first.after (moves ++ [m])) = c.farewells (first.after moves)) :
    c.Ledger request first (moves ++ [m]) ended where
  mem_iff := by
    intro place
    rw [h.mem_iff]
    refine and_congr_right fun hlt => ?_
    rw [results _ (first_add_mem hlt)]
  order := h.order.imp fun hends => hends.append [m]
  settles := fun entry hentry => (h.settles entry hentry).append [m]
  tells := by
    intro entry hentry
    have hlt := ((h.mem_iff entry.1).mp (List.mem_map_of_mem hentry)).1
    rw [results _ (first_add_mem hlt)]
    exact h.tells entry hentry
  failures := failures.trans h.failures
  farewells := fun hhook => farewells.trans (h.farewells hhook)

/-- A task that ends is entered in the ledger behind all others. -/
theorem Ledger.note {ended : List (Nat × Ending)} (h : c.Ledger request first moves ended)
    {place : Nat} {task : Task} {ending : Ending} {outcome : Outcome} (lt : place < c.size)
    (task_eq : request.tasks[place]? = some task)
    (before : (first.after moves).result? (c.first + place) = none)
    (results : ∀ i ∈ c.jobs, (first.after (moves ++ [m])).result? i
      = if i = c.first + place then some (.outcome outcome) else (first.after moves).result? i)
    (settles : (first.after moves).Settles (c.first + place) ending)
    (allowed : task.body.Allows ending) (tells : outcome.Tells task place ending)
    (failures : c.failures? (first.after (moves ++ [m]))
      = (c.failures? (first.after moves)).map (· ++ ending.failure?.toList))
    (farewells : c.farewells (first.after (moves ++ [m])) = c.farewells (first.after moves)
      ++ if request.hooks.onEnd.isSome then [c.first + place] else []) :
    c.Ledger request first (moves ++ [m]) (ended ++ [(place, ending)]) where
  mem_iff := by
    intro other
    rw [List.map_append, List.mem_append, h.mem_iff, List.map_singleton, List.mem_singleton]
    constructor
    · rintro (⟨hlt, hended⟩ | rfl)
      · refine ⟨hlt, ?_⟩
        rw [results _ (first_add_mem hlt)]
        split
        · exact Option.some_ne_none _
        · exact hended
      · refine ⟨lt, ?_⟩
        rw [results _ (first_add_mem lt), if_pos rfl]
        exact Option.some_ne_none _
    · rintro ⟨hlt, hended⟩
      rw [results _ (first_add_mem hlt)] at hended
      -- whatever has ended is the task that ends now, or had ended before
      by_cases heq : other = place
      · exact Or.inr heq
      · rw [if_neg (by omega)] at hended
        exact Or.inl ⟨hlt, hended⟩
  order := by
    rw [List.map_append, List.pairwise_append]
    refine ⟨h.order.imp fun hends => hends.append [m], List.pairwise_singleton _ _, ?_⟩
    intro earlier hearlier later hlater
    obtain rfl : later = place := List.mem_singleton.mp hlater
    -- right before the move the new one had not ended, and all others had
    exact ⟨moves, List.prefix_append moves [m], ((h.mem_iff earlier).mp hearlier).2, before⟩
  settles := by
    intro entry hentry
    rcases List.mem_append.mp hentry with hold | hnew
    · exact (h.settles entry hold).append [m]
    · rw [List.mem_singleton.mp hnew]
      exact ⟨moves, List.prefix_append moves [m], settles⟩
  tells := by
    intro entry hentry
    rcases List.mem_append.mp hentry with hold | hnew
    · obtain ⟨hlt, hended⟩ := (h.mem_iff entry.1).mp (List.mem_map_of_mem hold)
      -- what is in the ledger had ended, and the task that ends now had not
      have hne : c.first + entry.1 ≠ c.first + place := by
        intro heq
        rw [heq] at hended
        exact hended before
      rw [results _ (first_add_mem hlt), if_neg hne]
      exact h.tells entry hold
    · rw [List.mem_singleton.mp hnew]
      refine ⟨task, outcome, task_eq, ?_, allowed, tells⟩
      rw [results _ (first_add_mem lt), if_pos rfl]
  failures := by
    rw [failures, h.failures, List.filterMap_append]
    cases hending : ending.failure? <;> simp [hending]
  farewells := by
    intro hhook
    rw [farewells, h.farewells hhook, if_pos hhook, List.map_append]
    rfl

/-! ## The answer of the run -/

/-- A report holds the outcomes that the tasks of a run have come to, and the messages that the run
has kept. All tasks have given their slots back. -/
structure Reported (c : Crew) (s : State) (report : Report) : Prop where
  allOver : c.Over s
  length : report.tasks.length = c.size
  task : ∀ place, place < c.size → ∃ outcome, report.tasks[place]? = some outcome ∧
    s.result? (c.first + place) = some (.outcome outcome)
  failures : c.failures? s = some report.failures

/-- What holds of a run at every moment. -/
structure Tracked (c : Crew) (request : Request) (first : State) (moves : List Move) : Prop where
  ledger : c.Clean (first.after moves) → ∃ ended, c.Ledger request first moves ended
  /-- A run is only concluded once all its tasks have given their slots back. -/
  due : .conclude c.run ∈ (first.after moves).queue → c.Over (first.after moves)
  /-- A run one of whose tasks has crashed has an answer. -/
  blamed : ∀ i ∈ c.jobs, ∀ fault, (first.after moves).exit? i = some (.crashed fault, true) →
    c.answer? (first.after moves) ≠ none
  answered : ∀ report, c.answer? (first.after moves) = some (.ok report) →
    c.Reported (first.after moves) report

theorem result?_eq {i : Nat} {result : Result} {gone : Bool} (h : s.exit? i = some (result, gone)) :
    s.result? i = some result := by
  unfold result?
  rw [h]
  rfl

theorem result?_eq_none {i : Nat} (h : s.exit? i = none) : s.result? i = none := by
  unfold result?
  rw [h]
  rfl

theorem result?_congr {i : Nat} (h : t.exit? i = s.exit? i) : t.result? i = s.result? i := by
  unfold result?
  rw [h]

/-- A result is never taken back. -/
theorem Effect.result? (h : c.Effect request s t) {i : Nat} (mem : i ∈ c.jobs) {result : Result}
    (hresult : s.result? i = some result) : t.result? i = some result := by
  -- a job that comes to a result had none before
  have hne : ∀ {number : Nat}, s.exit? number = none → i ≠ number := by
    rintro number hnone rfl
    rw [result?_eq_none hnone] at hresult
    exact absurd hresult.symm (Option.some_ne_none _)
  cases h with
  | still exits => exact (result?_congr (exits i mem)).trans hresult
  | noted _ _ before exits =>
    refine (result?_congr ?_).trans hresult
    rw [exits i mem, if_neg (hne before)]
  | crashed _ before exits =>
    refine (result?_congr ?_).trans hresult
    rw [exits i mem, if_neg (hne before)]
  | @released number result' _ before exits =>
    by_cases heq : i = number
    · subst heq
      rw [result?_eq before] at hresult
      have hexit := exits i mem
      rw [if_pos rfl] at hexit
      exact (result?_eq hexit).trans hresult
    · refine (result?_congr ?_).trans hresult
      rw [exits i mem, if_neg heq]
  | concluded _ exits => exact (result?_congr (exits i mem)).trans hresult

theorem Effect.clean (h : c.Effect request s t) (clean : c.Clean t) : c.Clean s :=
  fun i hi fault hcrashed => clean i hi fault (h.result? hi hcrashed)

theorem over_congr (exits : ∀ i ∈ c.jobs, t.exit? i = s.exit? i) (hover : c.Over s) : c.Over t := by
  intro i hi
  rw [exits i hi]
  exact hover i hi

theorem Reported.congr {report : Report} (h : c.Reported s report)
    (exits : ∀ i ∈ c.jobs, t.exit? i = s.exit? i) (failures : c.failures? t = c.failures? s) :
    c.Reported t report where
  allOver := over_congr exits h.allOver
  length := h.length
  task := by
    intro place hlt
    rw [result?_congr (exits _ (first_add_mem hlt))]
    exact h.task place hlt
  failures := failures.trans h.failures

/-- In a run that is over, no job is still without a result or on its way out. -/
theorem Over.exit?_ne {i : Nat} (hover : c.Over s) (mem : i ∈ c.jobs) :
    s.exit? i ≠ none ∧ ∀ result, s.exit? i ≠ some (result, false) := by
  obtain ⟨result, hexit⟩ := hover i mem
  rw [hexit]
  exact ⟨Option.some_ne_none _, fun other => by simp⟩

/-! ## The report of a run that is over -/

theorem filterMap_eq_map_getD {α β : Type} [Inhabited β] {f : α → Option β} {l : List α}
    (h : ∀ a ∈ l, (f a).isSome = true) : l.filterMap f = l.map fun a => (f a).getD default := by
  rw [← List.filterMap_eq_map]
  refine List.filterMap_congr fun a ha => ?_
  obtain ⟨b, hb⟩ := Option.isSome_iff_exists.mp (h a ha)
  rw [Function.comp_apply, hb]
  rfl

/-- The outcome of a job that has given its slot back. -/
def outcome? (s : State) (i : Nat) : Option Outcome :=
  match s.exit? i with
  | some (.outcome outcome, true) => some outcome
  | _ => none

theorem CarriesOut.outcomes_eq (h : c.CarriesOut request s) :
    s.outcomes c.run = c.jobs.filterMap (outcome? s) := by
  rw [← h.map_fst_jobsOf, List.filterMap_map]
  refine List.filterMap_congr ?_
  rintro ⟨number, job⟩ hentry
  have hexit : s.exit? number = job.phase.exit? := exit?_of_job (mem_jobsOf hentry)
  rw [Function.comp_apply]
  unfold outcome?
  rw [hexit]
  dsimp only
  cases job.phase with
  | leaving result | finished result => cases result <;> rfl
  | waiting | granted | running | settled => rfl

theorem eq_of_answerOf {run : Run} {report answer : Report} (h : answerOf run report = .ok answer) :
    report = answer := by
  unfold answerOf at h
  split at h
  · exact absurd h (by simp)
  · exact Except.ok.inj h

theorem look_outcomes (s : State) (run : Nat) : s.look.outcomes run = s.outcomes run := by
  unfold State.outcomes jobsOf
  rw [look_jobs]

/-- The report of a run whose tasks are all over and have come to outcomes. -/
theorem reported_of_over (h : c.CarriesOut request s) (hover : c.Over s)
    (outcomes : ∀ place, place < c.size →
      ∃ outcome, s.result? (c.first + place) = some (.outcome outcome))
    {run : Run} (run_eq : s.runs[c.run]? = some run) :
    c.Reported s (s.look.reportOf c.run run) := by
  -- a task that has come to an outcome and given its slot back is finished with that outcome
  have hexit : ∀ place, place < c.size → ∃ outcome,
      s.exit? (c.first + place) = some (.outcome outcome, true) := by
    intro place hlt
    obtain ⟨outcome, hresult⟩ := outcomes place hlt
    obtain ⟨result, hgone⟩ := hover _ (first_add_mem hlt)
    rw [result?_eq hgone] at hresult
    exact ⟨outcome, by rw [hgone, Option.some.inj hresult]⟩
  have hsome : ∀ i ∈ c.jobs, (outcome? s i).isSome = true := by
    intro i hi
    obtain ⟨place, hlt, rfl⟩ := exists_place hi
    obtain ⟨outcome, hgone⟩ := hexit place hlt
    unfold outcome?
    rw [hgone]
    rfl
  have htasks : (s.look.reportOf c.run run).tasks
      = c.jobs.map fun i => (outcome? s i).getD default :=
    (look_outcomes s c.run).trans (h.outcomes_eq.trans (filterMap_eq_map_getD hsome))
  refine ⟨hover, ?_, fun place hlt => ?_, ?_⟩
  · rw [htasks, List.length_map]
    exact List.length_range'
  · obtain ⟨outcome, hgone⟩ := hexit place hlt
    refine ⟨outcome, ?_, result?_eq hgone⟩
    rw [htasks, List.getElem?_map]
    unfold jobs
    rw [List.getElem?_range' hlt, Nat.one_mul]
    unfold outcome?
    rw [Option.map_some, hgone]
    rfl
  · unfold failures?
    rw [run_eq]
    rfl

/-! ## Every move keeps track -/

/-- A run has not resolved while one of its tasks still holds its slot. -/
theorem Tracked.unresolved (h : c.Tracked request first moves)
    (not_over : ¬ c.Over (first.after moves)) (report : Report) :
    c.answer? (first.after moves) ≠ some (.ok report) :=
  fun hanswer => not_over (h.answered report hanswer).allOver

/-- A job that comes to a result still holds its slot, so no answer is due on its account. -/
theorem Tracked.blamed_leaving (h : c.Tracked request first moves) {number : Nat} {result : Result}
    (exits : ∀ i ∈ c.jobs, t.exit? i
      = if i = number then some (result, false) else (first.after moves).exit? i)
    (answer : c.answer? t = c.answer? (first.after moves)) :
    ∀ i ∈ c.jobs, ∀ fault, t.exit? i = some (.crashed fault, true) → c.answer? t ≠ none := by
  intro i hi fault hcrashed
  rw [answer]
  rw [exits i hi] at hcrashed
  split at hcrashed
  · exact absurd hcrashed (by simp)
  · exact h.blamed i hi fault hcrashed

theorem Tracked.blamed_released (h : c.Tracked request first moves) {number : Nat}
    {result : Result}
    (exits : ∀ i ∈ c.jobs, t.exit? i
      = if i = number then some (result, true) else (first.after moves).exit? i)
    (answer : (∀ fault, result ≠ .crashed fault) ∧ c.answer? t = c.answer? (first.after moves) ∨
      ∃ fault, result = .crashed fault ∧
        c.answer? t = some ((c.answer? (first.after moves)).getD (.error fault))) :
    ∀ i ∈ c.jobs, ∀ fault, t.exit? i = some (.crashed fault, true) → c.answer? t ≠ none := by
  intro i hi fault hcrashed
  -- either nothing is blamed anew, or the run has an answer now
  rcases answer with ⟨hother, hsame⟩ | ⟨own, -, hanswer⟩
  · rw [exits i hi] at hcrashed
    rw [hsame]
    split at hcrashed
    · exact absurd (Prod.mk.inj (Option.some.inj hcrashed)).1 (hother fault)
    · exact h.blamed i hi fault hcrashed
  · rw [hanswer]
    exact Option.some_ne_none _

/-- A job that gives its slot back does not make its run resolve. -/
theorem Tracked.unresolved_released (h : c.Tracked request first moves)
    (not_over : ¬ c.Over (first.after moves)) {result : Result}
    (answer : (∀ fault, result ≠ .crashed fault) ∧ c.answer? t = c.answer? (first.after moves) ∨
      ∃ fault, result = .crashed fault ∧
        c.answer? t = some ((c.answer? (first.after moves)).getD (.error fault)))
    (report : Report) : c.answer? t ≠ some (.ok report) := by
  intro hanswer
  -- a crash is no report, and a report that was there is not made by this
  rcases answer with ⟨-, hsame⟩ | ⟨own, -, hblamed⟩
  · exact h.unresolved not_over report (hsame ▸ hanswer)
  · rw [hblamed] at hanswer
    cases hold : c.answer? (first.after moves) with
    | none =>
      rw [hold] at hanswer
      exact absurd hanswer (by simp)
    | some earlier =>
      rw [hold] at hanswer
      exact h.unresolved not_over report (hold.trans hanswer)

/-- A run that is over and has no answer yet is clean: a crash would have been its answer. -/
theorem Tracked.clean_of_over (h : c.Tracked request first moves)
    (hover : c.Over (first.after moves)) (unanswered : c.answer? (first.after moves) = none) :
    c.Clean (first.after moves) := by
  intro i hi fault hcrashed
  obtain ⟨result, hgone⟩ := hover i hi
  rw [result?_eq hgone] at hcrashed
  rw [Option.some.inj hcrashed] at hgone
  exact h.blamed i hi fault hgone unanswered

/-- A task that has come to a result is in the ledger, so the result is an outcome. -/
theorem Ledger.outcome_of_result? {ended : List (Nat × Ending)}
    (ledger : c.Ledger request first moves ended) {place : Nat} (lt : place < c.size)
    (result : (first.after moves).result? (c.first + place) ≠ none) :
    ∃ outcome, (first.after moves).result? (c.first + place) = some (.outcome outcome) := by
  obtain ⟨entry, hentry, rfl⟩ := List.mem_map.mp ((ledger.mem_iff place).mpr ⟨lt, result⟩)
  obtain ⟨task, outcome, -, hresult, -⟩ := ledger.tells entry hentry
  exact ⟨outcome, hresult⟩

theorem Ledger.exists_outcome {ended : List (Nat × Ending)}
    (ledger : c.Ledger request first moves ended) (hover : c.Over (first.after moves)) {place : Nat}
    (lt : place < c.size) :
    ∃ outcome, (first.after moves).result? (c.first + place) = some (.outcome outcome) := by
  obtain ⟨result, hgone⟩ := hover _ (first_add_mem lt)
  refine ledger.outcome_of_result? lt ?_
  rw [result?_eq hgone]
  exact Option.some_ne_none _

/-- **A run is tracked by every move.** Each of the things that a move can mean for a run keeps the
ledger or adds to it, and leaves the run without an answer until all its slots are back. -/
theorem Tracked.step (h : c.Tracked request first moves)
    (carriesOut : c.CarriesOut request (first.after moves))
    (effect : c.Effect request (first.after moves) (first.after (moves ++ [m]))) :
    c.Tracked request first (moves ++ [m]) := by
  have hclean := effect.clean
  cases effect with
  | still exits run farewells conclude =>
    refine ⟨fun clean => ?_, fun hdue => over_congr exits (h.due (conclude hdue)), ?_, ?_⟩
    · obtain ⟨ended, ledger⟩ := h.ledger (hclean clean)
      exact ⟨ended, ledger.keep (fun i hi => result?_congr (exits i hi))
        (failures?_of_unsigned run) farewells⟩
    · intro i hi fault hcrashed
      rw [answer?_of_unsigned run]
      exact h.blamed i hi fault ((exits i hi).symm.trans hcrashed)
    · intro report hanswer
      rw [answer?_of_unsigned run] at hanswer
      exact (h.answered report hanswer).congr exits (failures?_of_unsigned run)
  | @noted place task ending outcome mem task_eq before exits settles allowed tells failures answer
      farewells conclude =>
    have hresults : ∀ i ∈ c.jobs, (first.after (moves ++ [m])).result? i
        = if i = c.first + place then some (.outcome outcome)
          else (first.after moves).result? i := by
      intro i hi
      unfold State.result?
      rw [exits i hi]
      split <;> rfl
    -- a run that is over has no task left that could end
    have hnot : ¬ c.Over (first.after moves) := fun hover => (hover.exit?_ne mem).1 before
    refine ⟨fun clean => ?_, fun hdue => absurd (h.due (conclude hdue)) hnot,
      h.blamed_leaving exits answer,
      fun report hanswer => absurd (answer ▸ hanswer) (h.unresolved hnot report)⟩
    obtain ⟨ended, ledger⟩ := h.ledger (hclean clean)
    have hlt : place < c.size := Nat.lt_of_add_lt_add_left (mem_jobs.mp mem).2
    exact ⟨_, ledger.note hlt task_eq (result?_eq_none before) hresults settles allowed tells
      failures farewells⟩
  | @crashed number fault mem before exits answer conclude =>
    have hnot : ¬ c.Over (first.after moves) := fun hover => (hover.exit?_ne mem).1 before
    refine ⟨fun clean => ?_, fun hdue => absurd (h.due (conclude hdue)) hnot,
      h.blamed_leaving exits answer,
      fun report hanswer => absurd (answer ▸ hanswer) (h.unresolved hnot report)⟩
    -- nothing is claimed about the ledger of a run with a crash
    have hexit := exits number mem
    rw [if_pos rfl] at hexit
    exact absurd (result?_eq hexit) (clean number mem fault)
  | @released number result mem before exits failures answer farewells conclude =>
    have hnot : ¬ c.Over (first.after moves) := fun hover => (hover.exit?_ne mem).2 result before
    refine ⟨fun clean => ?_, fun hdue => (conclude hdue).resolve_left fun hold => hnot (h.due hold),
      h.blamed_released exits answer,
      fun report hanswer => absurd hanswer (h.unresolved_released hnot answer report)⟩
    -- the result was there before the slot was given back
    obtain ⟨ended, ledger⟩ := h.ledger (hclean clean)
    refine ⟨ended, ledger.keep (fun i hi => ?_) failures farewells⟩
    unfold State.result?
    rw [exits i hi]
    split
    · next heq => rw [heq, before]; rfl
    · rfl
  | concluded due exits failures answer farewells conclude =>
    have hover : c.Over (first.after moves) := h.due due
    refine ⟨fun clean => ?_, fun _ => over_congr exits hover, ?_, ?_⟩
    · obtain ⟨ended, ledger⟩ := h.ledger (hclean clean)
      exact ⟨ended, ledger.keep (fun i hi => result?_congr (exits i hi)) failures farewells⟩
    · intro i hi fault hcrashed
      have hold := h.blamed i hi fault ((exits i hi).symm.trans hcrashed)
      rcases answer with hsame | ⟨hnone, -⟩
      · rw [hsame]
        exact hold
      · exact absurd hnone hold
    · intro report hanswer
      rcases answer with hsame | ⟨hnone, run, hrun, hanswered⟩
      · exact (h.answered report (hsame ▸ hanswer)).congr exits failures
      · -- the report is made from what the tasks have come to by now
        obtain ⟨ended, ledger⟩ := h.ledger (h.clean_of_over hover hnone)
        have hreport := eq_of_answerOf (Option.some.inj (hanswered.symm.trans hanswer))
        rw [← hreport]
        exact (reported_of_over carriesOut hover (fun _ hlt => ledger.exists_outcome hover hlt)
          hrun).congr exits failures

/-- A run that has just been opened has nothing in its ledger. -/
theorem tracked_nil (enrolled : s.Enrolled) (told : ∀ i ∈ s.farewells, i < s.jobs.length)
    (request : Request) :
    (ofRequest s request).Tracked request (s.receive (.settle request)) [] := by
  have hexit : ∀ place, (s.receive (.settle request)).exit? (s.jobs.length + place) = none := by
    intro place
    have hunborn : s.jobs[s.jobs.length + place]? = none :=
      List.getElem?_eq_none (Nat.le_add_right _ _)
    rw [receive_exit? s _ fun job hj => absurd (hunborn.symm.trans hj) (by simp)]
    unfold exit?
    rw [hunborn]
    rfl
  have hrun : (s.receive (.settle request)).runs[s.runs.length]? = some (s.runFor request) := by
    change (s.submit request).runs[s.runs.length]? = _
    rw [submit_runs, List.getElem?_append_right (Nat.le_refl _), Nat.sub_self]
    rfl
  have hanswer : (ofRequest s request).answer? (s.receive (.settle request)) = none := by
    change ((s.receive (.settle request)).runs[s.runs.length]?).bind (·.answer) = none
    rw [hrun]
    rfl
  refine ⟨fun _ => ⟨[], ?_⟩, fun hdue => ?_, ?_, ?_⟩
  · refine ⟨fun place => ?_, List.Pairwise.nil, fun _ h => absurd h List.not_mem_nil,
      fun _ h => absurd h List.not_mem_nil, ?_, fun _ => ?_⟩
    · refine ⟨fun h => absurd h List.not_mem_nil, fun h => absurd ?_ h.2⟩
      exact result?_eq_none (hexit place)
    · change ((s.receive (.settle request)).runs[s.runs.length]?).map (·.failures) = _
      rw [hrun]
      rfl
    · -- what has been told so far was about jobs that were there before
      change (s.receive (.settle request)).farewells.filter (· ∈ (ofRequest s request).jobs) = []
      rw [State.farewells_congr (receive_story s _), List.filter_eq_nil_iff]
      intro i hi hmem
      have hle : s.jobs.length ≤ i := (mem_jobs.mp (of_decide_eq_true hmem)).1
      exact absurd (told i hi) (Nat.not_lt.mpr hle)
  · -- a run is concluded at once only if it has no tasks, and then all of them are over
    change .conclude s.runs.length ∈ (s.receive (.settle request)).queue at hdue
    rcases conclude_of_receive hdue with hold | ⟨-, other, hsame, hempty⟩
    · exact absurd (enrolled.conclude _ hold) (Nat.lt_irrefl _)
    · intro i hi
      obtain rfl := Stimulus.settle.inj hsame
      obtain ⟨place, hlt, -⟩ := exists_place hi
      change place < request.tasks.length at hlt
      rw [hempty] at hlt
      exact absurd hlt (Nat.not_lt_zero place)
  · intro i hi fault hcrashed
    obtain ⟨place, -, rfl⟩ := exists_place hi
    exact absurd ((hexit place).symm.trans hcrashed) (by simp)
  · intro report hreport
    exact absurd (hanswer.symm.trans hreport) (by simp)

section Moves

variable {origin : State}

/-- What a move means for a run that has been submitted. -/
theorem effect_move (regular : origin.Regular capacity) (later : List Move) (m : Move) :
    let first := origin.receive (.settle request)
    let c := ofRequest origin request
    c.CarriesOut request (first.after later) →
      c.CarriesOut request (first.after (later ++ [m])) ∧
        c.Effect request (first.after later) (first.after (later ++ [m])) := by
  intro first c hcarries
  rw [after_concat]
  cases m with
  | arrive stimulus =>
    exact ⟨hcarries.receive stimulus, receive_effect hcarries stimulus⟩
  | tick =>
    have hregular := regular.after (.arrive (.settle request) :: later)
    obtain ⟨begun, admitted, hline⟩ := hregular.inLine
    exact ⟨hcarries.ticked hline.ticked,
      ticked_effect hline hregular.sound hcarries hline.ticked⟩

/-- **A run is tracked through everything that happens after its submission.** -/
theorem tracked_of_regular (regular : origin.Regular capacity) (request : Request)
    (later : List Move) :
    let first := origin.receive (.settle request)
    (ofRequest origin request).CarriesOut request (first.after later) ∧
      (ofRequest origin request).Tracked request first later := by
  intro first
  induction later using List.reverseRecOn with
  | nil =>
    exact ⟨carriesOut_receive regular.enrolled request,
      tracked_nil regular.enrolled regular.farewells request⟩
  | append_singleton later m ih =>
    obtain ⟨hcarries, htracked⟩ := ih
    obtain ⟨hnext, heffect⟩ := effect_move regular later m hcarries
    exact ⟨hnext, htracked.step hcarries heffect⟩

theorem tracked_after (positive : 0 < capacity) (clock : Number) (level : Log.Level) (shell : Shell)
    (before : List Move) (request : Request) (later : List Move) :
    let origin := (fresh positive clock level shell).after before
    let first := origin.receive (.settle request)
    (ofRequest origin request).CarriesOut request (first.after later) ∧
      (ofRequest origin request).Tracked request first later :=
  tracked_of_regular (regular_after positive clock level shell before) request later

end Moves

/-! ## The report -/

/-- A report accounts for a run whose tasks ended as a list says: their places, each with the ending
of its body. -/
structure Accounts (c : Crew) (request : Request) (first : State) (later : List Move)
    (report : Report) (ended : List (Nat × Ending)) : Prop where
  /-- Every task has ended once. -/
  perm : (ended.map Prod.fst).Perm (List.range request.tasks.length)
  /-- They ended in the order of the list. -/
  order : (ended.map Prod.fst).Pairwise fun a b =>
    first.EndsBefore later (c.first + a) (c.first + b)
  /-- The end hook, if there is one, was told of each of them, in that order. -/
  farewells : request.hooks.onEnd.isSome = true →
    c.farewells (first.after later) = ended.map (c.first + ·.1)
  /-- Their bodies settled with these endings. -/
  settles : ∀ entry ∈ ended, first.SettlesWithin later (c.first + entry.1) entry.2
  /-- There is one outcome for each task. -/
  length : report.tasks.length = request.tasks.length
  /-- The outcome at a place tells how the task at that place ended. -/
  tells : ∀ entry ∈ ended, ∃ task outcome, request.tasks[entry.1]? = some task ∧
    task.body.Allows entry.2 ∧ report.tasks[entry.1]? = some outcome ∧
    outcome.Tells task entry.1 entry.2
  /-- The failures are the errors of the outcomes, in the order in which the tasks ended. -/
  failures : report.failures = ended.filterMap fun entry => (report.tasks[entry.1]?).bind (·.error)

theorem filterMap_eq_range {α β : Type} (f : α → Option β) (l : List α) :
    l.filterMap f = (List.range l.length).filterMap fun i => (l[i]?).bind f := by
  have hplaces : l.map some = (List.range l.length).map fun i => l[i]? := by
    refine List.ext_getElem? fun i => ?_
    rw [List.getElem?_map, List.getElem?_map]
    rcases Nat.lt_or_ge i l.length with hlt | hge
    · rw [List.getElem?_range hlt, List.getElem?_eq_getElem hlt]
      exact congrArg some (List.getElem?_eq_getElem hlt).symm
    · rw [List.getElem?_eq_none hge, List.getElem?_eq_none (by rw [List.length_range]; exact hge)]
      rfl
  have hsome : l.filterMap f = (l.map some).filterMap fun a? => a?.bind f := by
    rw [List.filterMap_map]
    rfl
  rw [hsome, hplaces, List.filterMap_map]
  rfl

theorem Reported.clean {report : Report} (h : c.Reported s report) : c.Clean s := by
  intro i hi fault hcrashed
  obtain ⟨place, hlt, rfl⟩ := exists_place hi
  obtain ⟨outcome, -, hresult⟩ := h.task place hlt
  exact absurd (hresult.symm.trans hcrashed) (by simp)

/-- Once all tasks have come to results, each is in the ledger once. -/
theorem Ledger.perm {ended : List (Nat × Ending)} (h : c.Ledger request first moves ended)
    (all : ∀ place, place < c.size → (first.after moves).result? (c.first + place) ≠ none) :
    (ended.map Prod.fst).Perm (List.range c.size) := by
  have hnodup : (ended.map Prod.fst).Nodup :=
    h.order.imp fun hends heq => hends.ne (congrArg (c.first + ·) heq)
  refine (List.perm_ext_iff_of_nodup hnodup List.nodup_range).mpr fun place => ?_
  rw [h.mem_iff, List.mem_range]
  exact ⟨fun hended => hended.1, fun hlt => ⟨hlt, all place hlt⟩⟩

/-- The report of a run accounts for what is in its ledger. -/
theorem Ledger.accounts {ended : List (Nat × Ending)} (h : c.Ledger request first moves ended)
    (size : c.size = request.tasks.length) {report : Report}
    (reported : c.Reported (first.after moves) report) :
    c.Accounts request first moves report ended := by
  have htells : ∀ entry ∈ ended, ∃ task outcome, request.tasks[entry.1]? = some task ∧
      task.body.Allows entry.2 ∧ report.tasks[entry.1]? = some outcome ∧
      outcome.Tells task entry.1 entry.2 := by
    intro entry hentry
    obtain ⟨task, outcome, htask, hresult, hallowed, htold⟩ := h.tells entry hentry
    have hlt := ((h.mem_iff entry.1).mp (List.mem_map_of_mem hentry)).1
    -- the outcome in the report is the one that the task has come to
    obtain ⟨outcome', hget, hresult'⟩ := reported.task entry.1 hlt
    obtain rfl := Result.outcome.inj (Option.some.inj (hresult.symm.trans hresult'))
    exact ⟨task, outcome, htask, hallowed, hget, htold⟩
  refine ⟨?_, h.order, h.farewells, h.settles, reported.length.trans size, htells, ?_⟩
  · rw [← size]
    refine h.perm fun place hlt => ?_
    obtain ⟨outcome, -, hresult⟩ := reported.task place hlt
    rw [hresult]
    exact Option.some_ne_none _
  · rw [← Option.some.inj (h.failures.symm.trans reported.failures)]
    refine List.filterMap_congr fun entry hentry => ?_
    obtain ⟨task, outcome, -, -, hget, htold⟩ := htells entry hentry
    rw [hget, Ending.failure?_eq]
    exact htold.error.symm

/-- The failures are the errors of the outcomes in another order. -/
theorem Accounts.failures_perm {report : Report} {ended : List (Nat × Ending)}
    (h : c.Accounts request first moves report ended) :
    report.failures.Perm (report.tasks.filterMap (·.error)) := by
  have hmap : (ended.filterMap fun entry => (report.tasks[entry.1]?).bind (·.error))
      = (ended.map Prod.fst).filterMap fun i => (report.tasks[i]?).bind (·.error) := by
    rw [List.filterMap_map]
    rfl
  rw [filterMap_eq_range (·.error) report.tasks, h.length, h.failures, hmap]
  exact h.perm.filterMap _

/-- **A run that resolves has a report that accounts for it.** The outcomes are those of the tasks,
in their order, each under the name of its task and with the text of its failure exactly if its body
returned an error or threw. The failures are the errors of the outcomes in the order in which the
tasks ended, which is that of the calls of the end hook; so they are the same in another order. -/
theorem report_of_answer (positive : 0 < capacity) (clock : Number) (level : Log.Level)
    (shell : Shell) (before : List Move) (request : Request) (later : List Move) {report : Report} :
    let origin := (fresh positive clock level shell).after before
    let first := origin.receive (.settle request)
    let c := ofRequest origin request
    c.answer? (first.after later) = some (.ok report) →
      c.CarriesOut request (first.after later) ∧
      (∃ ended, c.Accounts request first later report ended) ∧
      report.failures.Perm (report.tasks.filterMap (·.error)) := by
  intro origin first c hanswer
  obtain ⟨hcarries, htracked⟩ := tracked_after positive clock level shell before request later
  have hreported : c.Reported (first.after later) report := htracked.answered report hanswer
  obtain ⟨ended, ledger⟩ := htracked.ledger hreported.clean
  have haccounts : c.Accounts request first later report ended := ledger.accounts rfl hreported
  exact ⟨hcarries, ⟨ended, haccounts⟩, haccounts.failures_perm⟩

/-- Two tasks that fail. With two slots, the second ends first. -/
def failingTasks : Request :=
  { label := "run"
    tasks :=
      [{ name := none, body := .prompt (.thrown (.text "a")) },
       { name := some "b", body := .immediate (.thrown (.text "b")) }] }

theorem report_of_answer_failingTasks :
    let origin := (fresh Nat.two_pos 0 .info []).after []
    let first := origin.receive (.settle failingTasks)
    let c := ofRequest origin failingTasks
    let later := List.replicate 6 Move.tick
    ∃ report, c.answer? (first.after later) = some (.ok report) ∧ report.failures = ["b", "a"] ∧
      (∃ ended, c.Accounts failingTasks first later report ended) ∧
      report.failures.Perm (report.tasks.filterMap (·.error)) := by
  intro origin first c later
  -- the second task fails first
  have resolved : ((c.answer? (first.after later)).bind (·.toOption)).map (·.failures)
      = some ["b", "a"] := by
    decide +kernel
  obtain ⟨report, hreport, failures⟩ := Option.map_eq_some_iff.mp resolved
  obtain ⟨answer, hanswer, hok⟩ := Option.bind_eq_some_iff.mp hreport
  cases answer with
  | error fault => exact absurd hok (by simp [Except.toOption])
  | ok other =>
    obtain rfl := Option.some.inj hok
    obtain ⟨-, accounts, perm⟩ :=
      report_of_answer Nat.two_pos 0 .info [] [] failingTasks later hanswer
    exact ⟨other, hanswer, failures, accounts, perm⟩

end Crew

end BoundedJobs
