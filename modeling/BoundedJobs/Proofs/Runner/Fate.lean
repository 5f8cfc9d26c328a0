import BoundedJobs.Proofs.Runner.Conclusion

/-!
# What a run comes to does not depend on its schedule

Tasks that each end in their own way, whenever that is, have a *fate*: the ending of the task at a
place. How many slots there are, who else uses them, how long the tasks take, in which order they
end and whether and when their run is aborted decides about times and about the order of the
failures, but about nothing else: `same_fate`.

The data of a run that are shared by its tasks are the messages of the failures and the slots. Each
task adds no more than its own message, and what a task comes to is written down from the ending of
its own body. So the report can be told from the names of the tasks and their fate
(`Execution.Completes.bare_eq`), and the failures are the messages in it in some order.

* `Execution` — a run that is submitted on some runner, and all that happens afterwards;
* `Execution.Follows` — the bodies of its tasks settle as a fate says. Bodies that can only end in
  one way do so by themselves (`Execution.follows_of_endsAs`);
* `Execution.Completes` — its report.
-/

namespace BoundedJobs

/-- What an outcome says but for its times. -/
def Outcome.bare (outcome : Outcome) : String × Status × Option String :=
  (outcome.name, outcome.status, outcome.error)

/-- A body settles with an ending if it settles at all. -/
def Body.EndsAs (body : Body) (ending : Ending) : Prop :=
  ∀ other, body.Allows other → other = ending

theorem Body.endsAs_timed (delay : Number) (ending : Ending) {onAbort : Option Ending}
    (heedless : ∀ early, onAbort = some early → early.effective = ending.effective) :
    (Body.timed delay ending onAbort).EndsAs ending.effective := by
  rintro other (rfl | ⟨early, hearly, rfl⟩)
  · rfl
  · exact heedless early hearly

/-- A run on a limiter that others may use as well: what happens before it is submitted, and what
happens afterwards. -/
structure Execution where
  capacity : Nat
  positive : 0 < capacity
  clock : Number := 0
  level : Log.Level := .info
  shell : Shell := []
  before : List Move := []
  request : Request
  later : List Move

namespace Execution

open State Crew

variable {x y : Execution} {fate : Nat → Ending} {report other : Report}

/-- The runner on which the run is submitted. -/
def origin (x : Execution) : State :=
  (fresh x.positive x.clock x.level x.shell).after x.before

def first (x : Execution) : State := x.origin.receive (.settle x.request)

def crew (x : Execution) : Crew := .ofRequest x.origin x.request

def last (x : Execution) : State := x.first.after x.later

/-- The answer of the run. -/
def answer? (x : Execution) : Option (Except Fault Report) := x.crew.answer? x.last

/-- The body of the task at a place settles as the fate says, if it does. -/
def Follows (x : Execution) (fate : Nat → Ending) : Prop :=
  ∀ place ending, place < x.request.tasks.length →
    x.first.SettlesWithin x.later (x.crew.first + place) ending → ending = fate place

/-- The run has its answer, which is made of a report on all its tasks. -/
def Completes (x : Execution) (report : Report) : Prop :=
  x.crew.Reported x.last report ∧ x.answer? = some (report.verdict x.request.strict)

theorem carriesOut (x : Execution) : x.crew.CarriesOut x.request x.last :=
  (tracked_after x.positive x.clock x.level x.shell x.before x.request x.later).1

theorem tracked (x : Execution) : x.crew.Tracked x.request x.first x.later :=
  (tracked_after x.positive x.clock x.level x.shell x.before x.request x.later).2

/-! ## When a run completes -/

/-- A run that shows its report completes with it. -/
theorem completes_of_report (h : x.answer? = some (.ok report)) :
    x.Completes report ∨ x.request.strict = true := by
  cases hstrict : x.request.strict with
  | true => exact Or.inr rfl
  | false =>
    refine Or.inl ⟨x.tracked.answered report h, ?_⟩
    rw [h, hstrict]
    rfl

/-- A run that is not strict completes when it shows its report. -/
theorem completes_iff (lenient : x.request.strict = false) :
    x.Completes report ↔ x.answer? = some (.ok report) := by
  constructor
  · rintro ⟨-, hanswer⟩
    rw [lenient] at hanswer
    exact hanswer
  · intro h
    exact (completes_of_report h).resolve_right (by rw [lenient]; exact Bool.false_ne_true)

/-- While the clock shows a date, every answer is that of a run that completes. -/
theorem completes_of_dated (dated : ∀ moment, moment <+: x.later → (x.first.after moment).Dated)
    {answer : Except Fault Report} (h : x.answer? = some answer) :
    ∃ report, x.Completes report ∧ answer = report.verdict x.request.strict := by
  have hconcludes :=
    concludes_after x.positive x.clock x.level x.shell x.before x.request x.later dated
  obtain ⟨report, hreported, hverdict⟩ := hconcludes.answered answer h
  exact ⟨report, ⟨hreported, by rw [h, hverdict]⟩, hverdict⟩

theorem Completes.accounts (h : x.Completes report) :
    ∃ ended, x.crew.Accounts x.request x.first x.later report ended := by
  obtain ⟨ended, ledger⟩ := x.tracked.ledger h.1.clean
  exact ⟨ended, ledger.accounts x.carriesOut.size h.1⟩

/-- A run that completes is rejected if it is strict and has failures. -/
theorem Completes.rejected_iff (h : x.Completes report) :
    (∃ fault, x.answer? = some (.error fault)) ↔
      x.request.strict = true ∧ report.failures ≠ [] := by
  rw [h.2]
  unfold Report.verdict
  cases x.request.strict <;> cases report.failures <;> simp

/-! ## Fates -/

/-- Bodies that end in one way only settle so whatever happens. -/
theorem follows_of_endsAs
    (h : ∀ place (task : Task), x.request.tasks[place]? = some task →
      task.body.EndsAs (fate place)) :
    x.Follows fate := by
  rintro place ending hlt ⟨moment, -, job, hj, hsettles⟩
  have htask := List.getElem?_eq_getElem hlt
  have hcarries :=
    (tracked_after x.positive x.clock x.level x.shell x.before x.request moment).1
  have hsound := sound_after x.positive x.clock x.level x.shell
    (x.before ++ .arrive (.settle x.request) :: moment)
  rw [after_append] at hsound
  -- the job at the place has the body of the task
  obtain ⟨job', hj', -, hbody⟩ := hcarries.task place _ htask
  obtain rfl := Option.some.inj (hj.symm.trans hj')
  refine h place _ htask ending ?_
  rw [← hbody]
  rcases hsettles with ⟨times, hphase⟩ | ⟨-, value, himmediate, rfl⟩
  · have hsuits := hsound.suits _ job hj
    rw [hphase] at hsuits
    exact hsuits
  · rw [himmediate]
    rfl

/-- What an outcome says of a task with a name and a fate. -/
def foretold (fate : Nat → Ending) (place : Nat) (name : Option String) :
    String × Status × Option String :=
  (name.getD ("task-" ++ toString (place + 1)),
    if (fate place).fails then .failed else .ok,
    if (fate place).fails then some (fate place).value.failureText else none)

/-- **The report can be told from the names of the tasks and their fate.** -/
theorem Completes.bare_eq (h : x.Completes report) (follows : x.Follows fate) :
    report.tasks.map Outcome.bare
      = (x.request.tasks.map (·.name)).mapIdx (foretold fate) := by
  obtain ⟨ended, accounts⟩ := h.accounts
  refine List.ext_getElem? fun place => ?_
  rw [List.getElem?_map, List.getElem?_mapIdx, List.getElem?_map]
  rcases Nat.lt_or_ge place x.request.tasks.length with hlt | hge
  · -- the task at the place has ended, with the ending that its fate says
    obtain ⟨entry, hentry, rfl⟩ :=
      List.mem_map.mp (accounts.perm.mem_iff.mpr (List.mem_range.mpr hlt))
    obtain ⟨task, outcome, htask, -, houtcome, htells⟩ := accounts.tells entry hentry
    have hfate := follows entry.1 entry.2 hlt (accounts.settles entry hentry)
    rw [hfate] at htells
    rw [houtcome, htask]
    exact congrArg some (Prod.ext htells.name (Prod.ext htells.status htells.error))
  · rw [List.getElem?_eq_none hge, List.getElem?_eq_none (by rw [accounts.length]; exact hge)]
    rfl

theorem Completes.failures_perm (h : x.Completes report) :
    report.failures.Perm ((report.tasks.map Outcome.bare).filterMap (·.2.2)) := by
  obtain ⟨ended, accounts⟩ := h.accounts
  rw [List.filterMap_map]
  exact accounts.failures_perm

/-- **A run comes to the same however it is scheduled.** Two runs of tasks of the same names whose
bodies settle with the same endings have the same outcomes, times apart, and the same failures in
some order. Capacities, the other runs and calls that share the slots, hooks, signals, the times at
which bodies settle and the order in which they do may all be different. So if both runs are strict,
or neither is, both are rejected or neither is. -/
theorem same_fate (names : x.request.tasks.map (·.name) = y.request.tasks.map (·.name))
    (follows : x.Follows fate) (follows' : y.Follows fate) (completes : x.Completes report)
    (completes' : y.Completes other) :
    report.tasks.map Outcome.bare = other.tasks.map Outcome.bare ∧
      report.failures.Perm other.failures ∧
      (x.request.strict = y.request.strict →
        ((∃ fault, x.answer? = some (.error fault)) ↔
          ∃ fault, y.answer? = some (.error fault))) := by
  have hbare : report.tasks.map Outcome.bare = other.tasks.map Outcome.bare := by
    rw [completes.bare_eq follows, completes'.bare_eq follows', names]
  -- the failures are those of the outcomes, and these are the same
  have hperm : report.failures.Perm other.failures := by
    refine completes.failures_perm.trans ?_
    rw [hbare]
    exact completes'.failures_perm.symm
  refine ⟨hbare, hperm, fun strict => ?_⟩
  have hnil : report.failures = [] ↔ other.failures = [] :=
    ⟨fun hnone => List.nil_perm.mp (hnone ▸ hperm), fun hnone => List.perm_nil.mp (hnone ▸ hperm)⟩
  rw [completes.rejected_iff, completes'.rejected_iff, strict]
  exact and_congr_right fun _ => not_congr hnil

/-- Two tasks that fail, and one that does not. -/
def mixedTasks : List Task :=
  [{ name := none, body := .timed 5 (.thrown (.text "a")) none },
   { name := some "b", body := .timed 2 (.thrown (.text "b")) none },
   { name := none, body := .prompt (.returned .absent) }]

/-- How the tasks end. -/
def mixedFate : Nat → Ending
  | 0 => .thrown (.text "a")
  | 1 => .thrown (.text "b")
  | _ => .returned .absent

/-- On one slot the tasks end in their order. -/
def oneSlot : Execution where
  capacity := 1
  positive := Nat.one_pos
  request := { label := "run", tasks := mixedTasks }
  later :=
    .tick :: .arrive (.fire 0) :: List.replicate 3 .tick ++ .arrive (.fire 0)
      :: List.replicate 6 .tick

/-- On two slots, one of which a call holds for some time, and after an abort, the second task ends
before the first. -/
def twoSlots : Execution where
  capacity := 2
  positive := Nat.two_pos
  before := [.arrive (.call "other" (.timed 1 (.returned .absent) none) true), .tick]
  request := { label := "again", tasks := mixedTasks, signal := .armed }
  later :=
    .tick :: .arrive (.fire 0) :: List.replicate 3 .tick ++ .arrive (.abort 0) :: .arrive (.fire 1)
      :: List.replicate 6 .tick ++ .arrive (.fire 0) :: List.replicate 3 .tick

/-- The tasks end as they say. -/
theorem mixedTasks_endsAs (place : Nat) (task : Task) (h : mixedTasks[place]? = some task) :
    task.body.EndsAs (mixedFate place) := by
  match place with
  | 0 =>
    obtain rfl := Option.some.inj h
    exact Body.endsAs_timed _ _ fun _ hearly => absurd hearly (by simp)
  | 1 =>
    obtain rfl := Option.some.inj h
    exact Body.endsAs_timed _ _ fun _ hearly => absurd hearly (by simp)
  | 2 =>
    obtain rfl := Option.some.inj h
    exact fun other hother => hother
  | place + 3 => exact absurd h (by simp [mixedTasks])

theorem same_fate_mixedTasks :
    ∃ report other, oneSlot.answer? = some (.ok report) ∧ twoSlots.answer? = some (.ok other) ∧
      report.failures = ["a", "b"] ∧ other.failures = ["b", "a"] ∧
      report.tasks.map Outcome.bare = other.tasks.map Outcome.bare := by
  have hfirst : (oneSlot.answer?.bind (·.toOption)).map (·.failures) = some ["a", "b"] := by
    decide +kernel
  have hsecond : (twoSlots.answer?.bind (·.toOption)).map (·.failures) = some ["b", "a"] := by
    decide +kernel
  obtain ⟨report, hreport, hfailures⟩ := Option.map_eq_some_iff.mp hfirst
  obtain ⟨other, hother, hfailures'⟩ := Option.map_eq_some_iff.mp hsecond
  have hanswer := eq_ok_of_toOption hreport
  have hanswer' := eq_ok_of_toOption hother
  obtain ⟨hbare, -, -⟩ := same_fate (x := oneSlot) (y := twoSlots) rfl
    (follows_of_endsAs mixedTasks_endsAs) (follows_of_endsAs mixedTasks_endsAs)
    ((completes_iff rfl).mpr hanswer) ((completes_iff rfl).mpr hanswer')
  exact ⟨report, other, hanswer, hanswer', hfailures, hfailures', hbare⟩

end Execution

end BoundedJobs
