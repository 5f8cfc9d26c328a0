import BoundedJobs.Cli.Program
import BoundedJobs.Proofs.Runner.Alarms
import BoundedJobs.Proofs.Semaphore.Usage

/-!
# The course of `run`

The command `run` gives all its commands to a runner of its own, and closes when the run has its
answer. What happens to the runner in between is a sequence of moves; the command line itself takes
one such course, the one on which everybody keeps the time that the world says.

* `Cli.Order` — what `run` is asked to do, once it has its limiter;
* `Order.armed`, `Order.answered`, `World.closing` — the runner before the commands are submitted
  and when they have their answer, and what the command leaves behind then (`World.run_eq`);
* `Order.Course` — a course on which all children have been heard from in the end;
* `Course.exists_reports` — after every course there is a report, and what it says;
* `Order.exists_course` — the command takes such a course.
-/

namespace BoundedJobs

namespace State

/-- The firing of timers is a sequence of moves. -/
theorem fireWithin_eq_after (isDue : Number → Bool) (stop : State → Bool) (fuel : Nat) (s : State) :
    ∃ moves, fireWithin isDue stop fuel s = s.after moves := by
  induction fuel generalizing s with
  | zero => exact ⟨[], rfl⟩
  | succ fuel ih =>
    unfold fireWithin
    split
    · exact ⟨[], rfl⟩
    · split
      · exact ⟨[], rfl⟩
      · next place _ =>
        obtain ⟨n, hn⟩ := respond_eq_after s (.fire place)
        obtain ⟨moves, hmoves⟩ := ih (s.respond (.fire place))
        refine ⟨.arrive (.fire place) :: List.replicate n .tick ++ moves, hmoves.trans ?_⟩
        rw [hn, ← after_append]

end State

namespace Limiter

variable {α : Type} {limiter : Limiter α}

/-- A limiter that is announced has been made before. -/
theorem eq_of_announced {s : Surroundings} {before : List String} {probeCalls : Nat}
    {made : Except Fault (Limiter α)}
    (h : (announced s before probeCalls made).result = .ok limiter) : made = .ok limiter := by
  unfold announced at h
  split at h
  · cases h
  · split at h
    · cases h
    · exact congrArg _ (Except.ok.inj h)

/-- A limiter for what has been detected is one for a cap. -/
theorem exists_cap_of_bind {detected : Except Fault Capacity}
    (h : detected.bind ofCapacity = .ok limiter) :
    ∃ cap, detected = .ok cap ∧ ofCapacity cap = .ok limiter := by
  cases detected with
  | error fault => cases h
  | ok cap => exact ⟨cap, rfl, h⟩

/-- **A new limiter** has the slots that its cap counts, all of them free. -/
theorem ofCapacity_eq_ok {cap : Capacity} (h : ofCapacity cap = .ok limiter) :
    ∃ n : Number, cap.maxParallel = .number n ∧ n.int? = some (limiter.slots.capacity : Int) ∧
      cap.source = limiter.source ∧
        limiter.slots = .idle limiter.slots.capacity limiter.slots.positive := by
  unfold ofCapacity ofValue at h
  cases hslots : (Semaphore.ofValue cap.maxParallel : Except Fault (Semaphore α)) with
  | error fault =>
    rw [hslots] at h
    cases h
  | ok slots =>
    rw [hslots] at h
    obtain rfl := Except.ok.inj h
    obtain ⟨n, hn, hint, hidle⟩ := Semaphore.ofValue_eq_ok_iff.mp hslots
    exact ⟨n, hn, hint, rfl, hidle⟩

end Limiter

namespace Cli

open State

/-- What `run` is asked to do in a world, once it has its limiter. -/
structure Order where
  world : World
  level : Log.Level
  commands : List String
  quiet : Bool
  record : Bool
  interrupt : Option Number
  capacity : Nat
  positive : 0 < capacity

/-! ## The parts of `run` -/

namespace Order

variable (o : Order)

/-- The runner of `run` before the commands are submitted. An interrupt is an alarm. -/
def armed : State :=
  let idle := { State.idle (.idle o.capacity o.positive) o.world.clock o.level o.world.shell with
    reports := o.world.reports }
  o.interrupt.elim idle fun delay => idle.addTimer delay (.abort 0)

/-- The commands, as one request. -/
def request : Request := World.request o.commands o.quiet

/-- The runner of `run` when the commands have been submitted. -/
def first : State := o.armed.receive (.settle o.request)

/-- The run of all commands. -/
def crew : Crew := .ofRequest o.armed o.request

/-- The runner of `run` when the commands have their answer. -/
def answered : State :=
  (o.armed.respond (.settle o.request)).runUntil fun s => (World.answer? s).isSome

end Order

namespace World

variable {w : World} {level : Log.Level} {jobs : Option Number}

/-- What `run` has written before its commands are submitted. -/
def base (w : World) (level : Log.Level) (jobs : Option Number) : Output :=
  { stderr := asLines (w.limiter level jobs).lines, queries := (w.limiter level jobs).probeCalls,
    level }

/-- What `run` has written before its report. -/
def written (base : Output) (s : State) : Output :=
  { base with stderr := base.stderr ++ asLines (linesOf s.events), spawned := s.spawned }

/-- What `run` leaves behind if it closes when its runner has come to a state. -/
def closing (w : World) (base : Output) (record : Bool) (s : State) : World × Output :=
  let world := { w with clock := s.clock, reports := s.reports }
  match answer? s with
  | some (.ok report) =>
    let (next, printed) := world.concluded report record (written base s)
    (if printed.exited then next else { next with clock := s.runOut.clock }, printed)
  | some (.error fault) => (world, (written base s).escape fault)
  | none => (world, written base s)

/-- What `run` is asked to do when it has got a limiter. -/
def order (w : World) (level : Log.Level) (commands : List String) (quiet record : Bool)
    (interrupt : Option Number) (limiter : Limiter Nat) : Order :=
  { world := w, level, commands, quiet, record, interrupt, capacity := limiter.slots.capacity,
    positive := limiter.slots.positive }

/-- The limiter of `run` has all its slots free. -/
theorem idle_of_limiter {limiter : Limiter Nat}
    (limits : (w.limiter level jobs).result = .ok limiter) :
    limiter.slots = .idle limiter.slots.capacity limiter.slots.positive := by
  cases jobs with
  | some cap =>
    have hcap : Limiter.ofCapacity ⟨.number cap, .override⟩ = .ok limiter :=
      Limiter.eq_of_announced limits
    obtain ⟨n, -, -, -, hidle⟩ := Limiter.ofCapacity_eq_ok hcap
    exact hidle
  | none =>
    obtain ⟨cap, -, hcap⟩ := Limiter.exists_cap_of_bind (Limiter.eq_of_announced limits)
    obtain ⟨n, -, -, -, hidle⟩ := Limiter.ofCapacity_eq_ok hcap
    exact hidle

/-- The runner of `run` once its commands have been submitted and all has been done that can be done
at once. -/
theorem opened_eq {limiter : Limiter Nat} (limits : (w.limiter level jobs).result = .ok limiter)
    (commands : List String) (quiet record : Bool) (interrupt : Option Number) :
    w.opened level limiter.slots commands quiet interrupt
      = (w.order level commands quiet record interrupt limiter).armed.respond
          (.settle (request commands quiet)) := by
  rw [idle_of_limiter limits]
  rfl

/-- The runner of `run` when its commands have their answer. -/
theorem runUntil_opened {limiter : Limiter Nat}
    (limits : (w.limiter level jobs).result = .ok limiter) (commands : List String)
    (quiet record : Bool) (interrupt : Option Number) :
    (w.opened level limiter.slots commands quiet interrupt).runUntil
        (fun s => (answer? s).isSome)
      = (w.order level commands quiet record interrupt limiter).answered := by
  rw [opened_eq limits commands quiet record interrupt]
  unfold Order.answered
  rfl

/-- **The command `run`** gets a limiter, goes on until its commands have their answer, and
closes. -/
theorem run_eq {limiter : Limiter Nat} (limits : (w.limiter level jobs).result = .ok limiter)
    (commands : List String) (quiet record : Bool) (interrupt : Option Number) :
    w.run level commands jobs quiet record interrupt
      = w.closing (w.base level jobs) record
          (w.order level commands quiet record interrupt limiter).answered := by
  unfold World.run
  dsimp only
  rw [limits]
  dsimp only
  rw [runUntil_opened limits commands quiet record interrupt]
  unfold closing
  -- how the runner has come to its state does not matter from here on
  generalize (w.order level commands quiet record interrupt limiter).answered = s
  rfl

theorem run_of_fault {fault : Fault} (limits : (w.limiter level jobs).result = .error fault)
    (commands : List String) (quiet record : Bool) (interrupt : Option Number) :
    w.run level commands jobs quiet record interrupt
      = (w, (w.base level jobs).escape fault) := by
  unfold World.run
  dsimp only
  rw [limits]
  rfl

end World

namespace Order

variable (o : Order) {later : List Move}

/-! ## Before the commands are submitted -/

theorem armed_fields :
    o.armed.jobs = [] ∧ o.armed.runs = [] ∧ o.armed.clock = o.world.clock ∧
      o.armed.shell = o.world.shell ∧
      o.armed.timers = o.interrupt.toList.map fun delay =>
        { due := o.world.clock + delay, alarm := .abort 0 } := by
  unfold armed
  cases o.interrupt <;> exact ⟨rfl, rfl, rfl, rfl, rfl⟩

theorem armed_unlagged : o.armed.lags = [] := by
  unfold armed
  cases o.interrupt <;> rfl

theorem regular_armed : o.armed.Regular o.capacity := by
  obtain ⟨⟨begun, admitted, hline⟩, enrolled, sound, farewells⟩ :=
    regular_after o.positive o.world.clock o.level o.world.shell []
  unfold armed
  cases o.interrupt with
  | none =>
    exact ⟨⟨begun, admitted, hline.congr ⟨rfl, rfl, rfl⟩⟩, ⟨enrolled.jobs, enrolled.conclude⟩,
      ⟨sound.suits, sound.timers, sound.handles⟩, farewells⟩
  | some delay =>
    refine ⟨⟨begun, admitted, hline.congr ⟨rfl, rfl, rfl⟩⟩, ⟨enrolled.jobs, enrolled.conclude⟩,
      ⟨sound.suits, fun timer hmem number ending halarm => ?_, sound.handles⟩, farewells⟩
    -- the only alarm is that of the interrupt
    rw [List.mem_singleton.mp hmem] at halarm
    cases halarm

theorem kin_armed : o.armed.Kin := by
  unfold armed
  cases o.interrupt <;>
    exact ⟨fun spawn hmem => absurd hmem List.not_mem_nil,
      fun i hmem => absurd hmem List.not_mem_nil⟩

theorem crew_run : o.crew.run = 0 := congrArg List.length o.armed_fields.2.1

theorem crew_first : o.crew.first = 0 := congrArg List.length o.armed_fields.1

/-- The answer of the one run of the runner is that of the run of all commands. -/
theorem answer?_eq (s : State) : World.answer? s = o.crew.answer? s := by
  unfold World.answer? Crew.answer?
  rw [crew_run]

/-- The tasks are the commands, under their own names. -/
theorem request_tasks (place : Nat) :
    o.request.tasks[place]?
      = (o.commands[place]?).map fun line => ⟨some line, .command line o.quiet⟩ :=
  List.getElem?_map ..

theorem exists_line {place : Nat} {task : Task} (h : o.request.tasks[place]? = some task) :
    ∃ line, o.commands[place]? = some line ∧ task = ⟨some line, .command line o.quiet⟩ := by
  rw [request_tasks] at h
  obtain ⟨line, hline, rfl⟩ := Option.map_eq_some_iff.mp h
  exact ⟨line, hline, rfl⟩

theorem task_of_line {place : Nat} {line : String} (h : o.commands[place]? = some line) :
    o.request.tasks[place]? = some ⟨some line, .command line o.quiet⟩ := by
  rw [request_tasks, h]
  rfl

theorem first_shell : o.first.shell = o.world.shell :=
  (receive_sends o.armed (.settle o.request)).shell.trans o.armed_fields.2.2.2.1

/-! ## Courses -/

/-- **A course of `run`**: what can happen to its runner once the commands have been submitted,
until no work is left and all children have reported. Children may exit, be killed or fail to start
in any order, and the signal may come at any time. -/
structure Course (later : List Move) : Prop where
  undisturbed : o.first.Undisturbed later
  quiet : (o.first.after later).queue = []
  reported : ∀ (place : Nat) (line : String), o.commands[place]? = some line →
    (o.world.shell.child line).spawnError = none → ¬ o.first.Lives later place

/-- How the commands have gone: which of them have succeeded. -/
def verdicts (later : List Move) : List Bool :=
  o.commands.zipIdx.map fun (line, place) =>
    (o.world.shell.child line).succeeded (o.first.heard? place later)

theorem verdicts_eq {place : Nat} {line : String} (h : o.commands[place]? = some line)
    (later : List Move) : (o.verdicts later)[place]?
      = some ((o.world.shell.child line).succeeded (o.first.heard? place later)) := by
  unfold verdicts
  rw [List.getElem?_map, List.getElem?_zipIdx, h]
  change some ((o.world.shell.child line).succeeded (o.first.heard? (0 + place) later)) = _
  rw [Nat.zero_add]

/-- What a report of `run` says after a course. -/
structure Reports (later : List Move) (report : Report) (ended : List (Nat × Ending)) : Prop where
  /-- It is the answer of the run. -/
  answer : World.answer? (o.first.after later) = some (.ok report)
  /-- It accounts for all commands, which have ended in some order. -/
  accounts : o.crew.Accounts o.request o.first later report ended
  /-- The command at a place has failed exactly if its child has not succeeded. -/
  outcome : ∀ (place : Nat) (line : String), o.commands[place]? = some line → ∃ outcome : Outcome,
    report.tasks[place]? = some outcome ∧ outcome.name = line ∧
      (o.verdicts later)[place]? = some (decide (outcome.status = .ok))
  maxParallel : report.maxParallel = .ofNat o.capacity
  /-- Its times come from the clock. -/
  shows : report.Shows
  spans : ∀ outcome ∈ report.tasks, outcome.waitedMs.IsSpan ∧ outcome.durationMs.IsSpan

theorem Undisturbed.dated (h : o.first.Undisturbed later) :
    ∀ moment, moment <+: later → (o.first.after moment).Dated :=
  fun moment hmoment count hcount => (h.readings moment hmoment count hcount).inRange

variable {o}

/-- **After a course there is a report.** -/
theorem Course.exists_reports (h : o.Course later) (now : o.world.clock.IsReading) :
    ∃ report ended, o.Reports later report ended := by
  obtain ⟨hempty, -, hclock, -, -⟩ := o.armed_fields
  have hopened : o.armed.clock.IsReading := hclock.symm ▸ now
  have hdated := Undisturbed.dated o h.undisturbed
  have hcommands : ∀ task ∈ o.request.tasks, ∃ line quiet, task.body = .command line quiet := by
    intro task hmem
    obtain ⟨place, hplace⟩ := List.getElem?_of_mem hmem
    obtain ⟨line, -, rfl⟩ := o.exists_line hplace
    exact ⟨line, o.quiet, rfl⟩
  -- all commands have settled, so there is an answer
  have hsettled : ∀ i ∈ o.crew.jobs, i ∉ (o.first.after later).unsettled := by
    refine Crew.settled_of_silent o.regular_armed o.kin_armed o.positive hempty o.request hcommands
      h.undisturbed.alone hdated h.quiet fun place task line quiet htask hbody hstarts => ?_
    obtain ⟨other, hline, rfl⟩ := o.exists_line htask
    obtain ⟨rfl, -⟩ := Body.command.inj hbody
    change ¬ o.first.Lives later (o.crew.first + place)
    rw [crew_first, Nat.zero_add]
    exact h.reported place other hline (o.first_shell ▸ hstarts)
  have hsome := Crew.answer_of_quiet o.regular_armed o.request later hsettled h.quiet
  obtain ⟨answer, hanswer⟩ := Option.ne_none_iff_exists'.mp hsome
  obtain ⟨report, ended, hreported, haccounts, rfl⟩ :=
    Crew.accounts_of_answer o.regular_armed o.request later hdated answer hanswer
  have hverdict : report.verdict o.request.strict = .ok report := rfl
  rw [hverdict] at hanswer
  have hshows := Crew.shows_of_regular Number.IsReading o.regular_armed o.request later
    (clocked_of_unlagged o.armed_unlagged hopened) h.undisturbed.readings
  rw [look_of_unlagged o.armed_unlagged] at hshows
  refine ⟨report, ended, ?_, haccounts, fun place line hline => ?_, ?_, ?_, fun outcome hmem => ?_⟩
  · rw [answer?_eq]
    exact hanswer
  · have htask := o.task_of_line hline
    obtain ⟨outcome, houtcome, hstatus⟩ := Crew.status_of_reported o.regular_armed o.kin_armed
      o.request later htask rfl hdated hreported
    obtain ⟨other, ending, hother, htells⟩ := haccounts.exists_tells htask
    obtain rfl := Option.some.inj (houtcome.symm.trans hother)
    refine ⟨outcome, houtcome, htells.name, ?_⟩
    change outcome.status = .ok ↔
      (o.first.shell.child line).succeeded (o.first.heard? (o.crew.first + place) later) = true
      at hstatus
    rw [crew_first, Nat.zero_add, o.first_shell] at hstatus
    rw [o.verdicts_eq hline]
    congr 1
    rw [Bool.eq_iff_iff, ← hstatus, decide_eq_true_iff]
  · exact Crew.maxParallel_of_answer o.regular_armed o.request later report hanswer
  · obtain ⟨hstarted, hfinished, hduration⟩ := hshows.report report hanswer
    exact ⟨hstarted.symm ▸ hopened, hfinished, hduration⟩
  · exact hshows.outcome hreported hmem

/-! ## The course that `run` takes -/

/-- A run with an answer has no command in progress. -/
theorem not_mem_bodies_of_answer (hdated : ∀ moment, moment <+: later →
    (o.first.after moment).Dated) (answered : (World.answer? (o.first.after later)).isSome = true)
    {i : Nat} (mem : i ∈ o.crew.jobs) : i ∉ (o.first.after later).bodies := by
  rw [answer?_eq] at answered
  obtain ⟨answer, hanswer⟩ := Option.isSome_iff_exists.mp answered
  obtain ⟨report, hreported, -⟩ :=
    (Crew.concludes_of_regular o.regular_armed o.request later hdated).answered answer hanswer
  have hcarries := (Crew.tracked_of_regular o.regular_armed o.request later).1
  have hsettled := hcarries.over_iff.mp hreported.allOver i mem
  intro hbody
  obtain ⟨job, hj, hrunning⟩ := mem_jobsIn.mp hbody
  refine hsettled (mem_unsettled.mpr ⟨job, hj, ?_⟩)
  -- a job that has finished is in no body any more
  cases hp : job.phase with
  | running times => rfl
  | waiting | granted | settled | leaving | finished =>
    rw [hp] at hrunning
    cases hrunning

/-- Nobody waits for anything but times, and the clock stays in the range of dates. -/
structure IsTimed (o : Order) : Prop where
  now : o.world.clock.IsReading
  delays : ∀ line ∈ o.commands, (o.world.shell.child line).delay.IsWait
  interrupt : ∀ delay ∈ o.interrupt, delay.IsWait
  inRange : Timestamp.InRange o.answered.clock

/-- **The command `run` takes a course**, if everything is timed: when its commands have their
answer, all children have reported. -/
theorem exists_course (timed : o.IsTimed) :
    ∃ later, o.Course later ∧ o.answered = o.first.after later := by
  obtain ⟨hempty, hunopened, hclock, hshell, htimers⟩ := o.armed_fields
  -- the only alarm before the commands start is that of the interrupt
  have hmoments : ∀ timer ∈ o.armed.timers, timer.due.IsMoment := by
    intro timer hmem
    rw [htimers] at hmem
    obtain ⟨delay, hdelay, rfl⟩ := List.mem_map.mp hmem
    exact timed.now.isMoment_add (timed.interrupt delay (Option.mem_toList.mp hdelay))
  have hcommands : ∀ task ∈ o.request.tasks, ∃ line quiet, task.body = .command line quiet ∧
      (o.armed.shell.child line).delay.IsWait := by
    intro task hmem
    obtain ⟨place, hplace⟩ := List.getElem?_of_mem hmem
    obtain ⟨line, hline, rfl⟩ := o.exists_line hplace
    exact ⟨line, o.quiet, rfl, hshell ▸ timed.delays line (List.mem_of_getElem? hline)⟩
  -- the clock stops at the answer, or when nothing is left to wait for
  obtain ⟨later, hlast, halted⟩ := halted_of_runUntil o.regular_armed hempty hunopened
    o.armed_unlagged (hclock.symm ▸ timed.now) hmoments hcommands
    (fun s => (World.answer? s).isSome) timed.inRange
  refine ⟨later, ⟨halted.undisturbed, halted.quiet, fun place line hline hstarts => ?_⟩, hlast⟩
  have hdated := Undisturbed.dated o halted.undisturbed
  have htask := o.task_of_line hline
  have hcarries := (Crew.tracked_of_regular o.regular_armed o.request later).1
  have hmem : o.crew.first + place ∈ o.crew.jobs := Crew.first_add_mem
    (hcarries.size ▸ (List.getElem?_eq_some_iff.mp htask).1)
  -- in both cases no child of this run is left at work, and so each has reported
  have hidle : o.crew.first + place ∉ (o.first.after later).bodies := by
    rcases halted.halted with hanswered | hnone
    · exact not_mem_bodies_of_answer hdated hanswered hmem
    · change (o.first.after later).bodies = [] at hnone
      rw [hnone]
      exact List.not_mem_nil
  have hsilent := Crew.not_lives_of_idle o.regular_armed o.kin_armed o.request later htask rfl
    hdated hidle (o.first_shell.symm ▸ hstarts)
  change ¬ o.first.Lives later (o.crew.first + place) at hsilent
  rwa [crew_first, Nat.zero_add] at hsilent

end Order

end Cli

end BoundedJobs
