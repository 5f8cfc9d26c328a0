import BoundedJobs.Proofs.Rounding
import BoundedJobs.Proofs.Runner.Conclusion
import BoundedJobs.Proofs.Runner.Roster
import Mathlib.Algebra.GroupWithZero.Nat
import Mathlib.Algebra.Order.BigOperators.Group.List
import Mathlib.Algebra.Order.Group.Nat
import Mathlib.Data.List.Pairwise

/-!
# Where the time of a run goes

A run looks at the clock when it is opened and when each of its tasks asks for a slot, twice when a
task starts, when its body has ended, and when the run is concluded (`Crew.readings`). Log lines,
hooks, the bodies of tasks and whatever else shares the slots may take time between any two of these
looks. As long as the readings do not go back, the time from one of them to the next is spent by no
more jobs than there are slots: a job only spends time in its body while it holds a slot, and while
a piece of work is done no slot changes hands before all looks have been taken. Added up over all
readings this is the area of the run: `Crew.times_of_readings`.

* `State.readings` — what the clock shows at the next looks;
* `Job.Spends` — how the times that a job knows of lie between the opening of its run and now, and
  that its body has been under way no longer than the job has held its slot;
* `Crew.Spent` — the same for all jobs of a run. It grows by the time between two readings for
  those that hold a slot (`Spent.elapse`), and every move keeps it (`Spent.ticked`);
* `Crew.Timed` — what holds of the times of a run at every moment;
* `Report.Adds` — what the report says about them.

Readings are whole numbers, but a difference of two of them may have more than 53 binary digits, and
then the report shows the number nearest to it.
-/

namespace BoundedJobs

namespace Number

/-- Readings of a clock that are whole numbers of milliseconds and do not go back. -/
def Ascending (readings : List Number) : Prop :=
  ∃ times : List Int, readings = times.map ofInt ∧ (∀ time ∈ times, Whole time) ∧
    times.Pairwise (· ≤ ·)

/-- The difference of two readings. -/
theorem ofInt_sub {early late : Int} (first : Whole early) (second : Whole late)
    (le : early ≤ late) : ofInt late - ofInt early = ofNat (late - early).toNat := by
  obtain ⟨n, hn⟩ := Int.eq_ofNat_of_zero_le (Int.sub_nonneg_of_le le)
  rw [second.sub first, hn]
  rfl

end Number

/-! ## Readings -/

namespace State

variable {s t : State} {number : Nat} {job : Job}

/-- What the clock shows at each of the next looks. -/
def readings (s : State) : Nat → List Number
  | 0 => []
  | count + 1 => s.look.clock :: s.look.readings count

theorem readings_congr (time : SameTime s t) (count : Nat) :
    t.readings count = s.readings count := by
  induction count generalizing s t with
  | zero => rfl
  | succ count ih =>
    unfold readings
    rw [time.look.clock, ih time.look]

theorem mem_readings {place count : Nat} (lt : place < count) :
    (s.looks (place + 1)).clock ∈ s.readings count := by
  induction count generalizing s place with
  | zero => exact absurd lt (Nat.not_lt_zero place)
  | succ count ih =>
    cases place with
    | zero => exact List.mem_cons_self
    | succ place => exact List.mem_cons_of_mem _ (ih (s := s.look) (Nat.lt_of_succ_lt_succ lt))

/-- What the first of several looks shows, and what the others show. -/
theorem exists_of_readings {count : Nat} {times : List Int}
    (h : s.readings (count + 1) = times.map .ofInt) :
    ∃ time rest, times = time :: rest ∧ s.look.clock = .ofInt time ∧
      s.look.readings count = rest.map .ofInt := by
  cases times with
  | nil => exact absurd h (List.cons_ne_nil _ _)
  | cons time rest =>
    obtain ⟨hfirst, hrest⟩ := List.cons.inj h
    exact ⟨time, rest, rfl, hfirst, hrest⟩

end State

/-- How often a task looks at the clock in the tick in which it starts: for the time that it has
waited, when its body is entered, and once more if the body is over by then. -/
def Body.looks : Body → Nat
  | .immediate (.thrown _) => 3
  | _ => 2

theorem Body.exists_looks (body : Body) : ∃ more, body.looks = more + 2 := by
  unfold looks
  split
  · exact ⟨1, rfl⟩
  · exact ⟨0, rfl⟩

/-! ## Jobs -/

/-- How the times that a phase knows of lie between the opening of a run and now, for a job that has
held its slot for some time. -/
def Phase.Spends (opened now : Int) (phase : Phase) (held : Nat) : Prop :=
  match phase with
  | waiting | granted => True
  | running times | settled times _ =>
    ∃ (waited : Nat) (began : Int), opened + waited ≤ began ∧ began ≤ now ∧ now ≤ began + held ∧
      Number.Whole began ∧ times = { waited := .ofNat waited, started := .ofInt began }
  | leaving result | finished result => ∀ outcome, result = .outcome outcome →
      ∃ waited ran : Nat, opened + waited + ran ≤ now ∧ ran ≤ held ∧
        outcome.waitedMs = .ofNat waited ∧ outcome.durationMs = .ofNat ran

/-- How the times of a job lie between the opening of its run and now, if the job has held its slot
for some time. -/
structure Job.Spends (opened now : Int) (job : Job) (held : Nat) : Prop where
  submitted : ∃ submitted, opened ≤ submitted ∧ submitted ≤ now ∧ Number.Whole submitted ∧
    job.submitted = .ofInt submitted
  phase : job.phase.Spends opened now held

/-- The result of a direct call is no outcome of a task. -/
theorem Result.ofCall_ne_outcome (times : Times) (ending : Ending) (outcome : Outcome) :
    Result.ofCall times ending ≠ .outcome outcome := by
  cases ending <;> simp [Result.ofCall]

section Spends

variable {opened now later : Int} {held : Nat} {phase : Phase} {job : Job}

/-- Time passes for a job that holds a slot, and is nothing to any other. -/
theorem Phase.Spends.elapse (h : phase.Spends opened now held) (le : now ≤ later) :
    phase.Spends opened later (held + if phase.holds then (later - now).toNat else 0) := by
  cases phase with
  | waiting | granted => trivial
  | running times | settled times ending =>
    obtain ⟨waited, began, hwaited, hbegan, hheld, htimes⟩ := h
    refine ⟨waited, began, hwaited, by omega, ?_, htimes⟩
    change later ≤ began + ((held + (later - now).toNat : Nat) : Int)
    omega
  | leaving result | finished result =>
    intro outcome houtcome
    obtain ⟨waited, ran, hsum, hran, htimes⟩ := h outcome houtcome
    exact ⟨waited, ran, by omega, by omega, htimes⟩

theorem Job.Spends.elapse (h : job.Spends opened now held) (le : now ≤ later) :
    job.Spends opened later (held + if job.phase.holds then (later - now).toNat else 0) := by
  obtain ⟨submitted, hopened, hnow, hsubmitted⟩ := h.submitted
  exact ⟨⟨submitted, hopened, hnow.trans le, hsubmitted⟩, h.phase.elapse le⟩

theorem Phase.Hears.spends {old new : Phase} (h : old.Hears new)
    (spends : old.Spends opened now held) : new.Spends opened now held := by
  rcases h with rfl | ⟨times, ending, rfl, rfl | rfl⟩
  · exact spends
  · exact spends
  · exact fun outcome houtcome => absurd houtcome (Result.ofCall_ne_outcome _ _ _)

end Spends

namespace State

variable {s t : State} {number : Nat} {job : Job} {opened now : Int} {held : Nat}

/-- The end of a body that is noted now is that of a body that has been under way since it was
entered. -/
theorem Noted.spends {times : Times} {ending : Ending} {result : Result}
    (h : Noted s number job times ending t result) (reading : s.look.clock = .ofInt now)
    (whole : Number.Whole now)
    (spends : (Phase.settled times ending).Spends opened now held) :
    (Phase.leaving result).Spends opened now held := by
  obtain ⟨waited, began, hwaited, hbegan, hheld, hwhole, rfl⟩ := spends
  intro outcome houtcome
  cases h with
  | call => exact absurd houtcome (Result.ofCall_ne_outcome _ _ _)
  | outcome =>
    obtain rfl := Result.outcome.inj houtcome
    refine ⟨waited, (now - began).toNat, by omega, by omega, rfl, ?_⟩
    change s.look.clock - .ofInt began = _
    rw [reading, Number.ofInt_sub hwhole whole hbegan]
  | crashed => exact absurd houtcome (by simp)

/-- A task that starts may have looked at the clock several times by the end of its start, which is
now. Since the first of these looks it has held its slot. -/
theorem Opening.spends {phase : Phase} (h : Opening s number job t phase) (task : job.run? ≠ none)
    {before : Int} {times : List Int} (readings : s.readings job.body.looks = times.map .ofInt)
    (whole : ∀ time ∈ times, Number.Whole time) (ascending : (before :: times).Pairwise (· ≤ ·))
    (last : ∀ time ∈ times, time ≤ now) (last_mem : now ∈ before :: times)
    (submitted : ∃ submitted, opened ≤ submitted ∧ submitted ≤ before ∧ Number.Whole submitted ∧
      job.submitted = .ofInt submitted) (recent : now - before ≤ held) :
    phase.Spends opened now held := by
  obtain ⟨more, hlooks⟩ := job.body.exists_looks
  obtain ⟨submitted, hopened, hbefore, hsubmitted, heq⟩ := submitted
  rw [hlooks] at readings
  obtain ⟨noticed, times, rfl, hnoticed, hrest⟩ := exists_of_readings readings
  obtain ⟨began, times, rfl, hbegan, hrest⟩ := exists_of_readings hrest
  simp only [List.pairwise_cons, List.forall_mem_cons] at ascending whole last
  obtain ⟨⟨hfirst, -⟩, ⟨hsecond, -⟩, hlater⟩ := ascending
  obtain ⟨hwhole, hwhole', hmore⟩ := whole
  have htimes : s.timesOf job
      = { waited := .ofNat (noticed - submitted).toNat, started := .ofInt began } := by
    unfold timesOf
    rw [hnoticed, heq, Number.ofInt_sub hsubmitted hwhole (by omega), looked_of_task task, hbegan]
  have hspends : ∀ ending, (Phase.settled (s.timesOf job) ending).Spends opened now held := fun _ =>
    ⟨(noticed - submitted).toNat, began, by omega, last.2.1, by omega, hwhole', htimes⟩
  cases h with
  | barred => exact fun outcome houtcome => absurd houtcome (by simp)
  | running => exact hspends (.returned .absent)
  | @settled _ ending =>
    rw [ended_of_run? task]
    exact hspends ending
  | @thrown mid _ value _ body _ time noted =>
    -- the end of the body is looked up as well, and this is the last look
    obtain rfl : more = 1 := by
      rw [body] at hlooks
      exact (Nat.succ.inj (Nat.succ.inj hlooks)).symm
    obtain ⟨ended, times, rfl, hended, hnone⟩ := exists_of_readings hrest
    obtain rfl := List.map_eq_nil_iff.mp hnone.symm
    have hnow : now = ended := by
      simp only [List.mem_cons, List.not_mem_nil, or_false] at last_mem
      have hlast := last.2.2 ended List.mem_cons_self
      have hthird := hlater.1 ended List.mem_cons_self
      omega
    subst hnow
    refine noted.spends ?_ (hmore now List.mem_cons_self) (hspends (.thrown value))
    rw [time.look.clock, looked_of_task task]
    exact hended

end State

/-- A count over a list is a count over its places. -/
theorem countP_eq_range {α : Type} (p : α → Bool) (l : List α) :
    l.countP p = (List.range l.length).countP fun i => (l[i]?).any p := by
  have hlength := congrArg List.length (Crew.filterMap_eq_range (Option.guard p) l)
  rw [List.length_filterMap_eq_countP, List.length_filterMap_eq_countP] at hlength
  have hguard : ∀ a? : Option α, (a?.bind (Option.guard p)).isSome = a?.any p := by
    intro a?
    cases a? with
    | none => rfl
    | some a => simp
  simp only [hguard, Option.isSome_guard] at hlength
  exact hlength

theorem sum_map_add_ite {α : Type} (f : α → Nat) (p : α → Bool) (more : Nat) (l : List α) :
    (l.map fun a => f a + if p a then more else 0).sum = (l.map f).sum + l.countP p * more := by
  induction l with
  | nil => simp
  | cons a l ih =>
    rw [List.map_cons, List.sum_cons, ih, List.map_cons, List.sum_cons, List.countP_cons,
      Nat.add_mul]
    split
    · omega
    · omega

/-! ## Reports -/

/-- What a report says about the times of a run: its tasks waited and ran as the spans say, all
within the time of the run, and together they ran no longer than all slots could be used. -/
structure Report.Adds (report : Report) (capacity : Nat) (opened : Int) (total : Nat)
    (spans : List (Nat × Nat)) : Prop where
  maxParallel : report.maxParallel = .ofNat capacity
  startedAt : report.startedAt = .ofInt opened
  finishedAt : report.finishedAt = .ofInt (opened + total)
  /-- The time of the run is the difference of the two readings. -/
  durationMs : report.durationMs = report.finishedAt - report.startedAt ∧
    report.durationMs = .ofNat total
  tasks : report.tasks.map (fun outcome => (outcome.waitedMs, outcome.durationMs))
    = spans.map fun span => (.ofNat span.1, .ofNat span.2)
  within : ∀ span ∈ spans, span.1 + span.2 ≤ total
  area : (spans.map Prod.snd).sum ≤ capacity * total

/-- What an outcome in the report shows is one of the spans. -/
theorem Report.Adds.exists_span {report : Report} {capacity total : Nat} {opened : Int}
    {spans : List (Nat × Nat)} (h : report.Adds capacity opened total spans) {outcome : Outcome}
    (mem : outcome ∈ report.tasks) :
    ∃ span ∈ spans, outcome.waitedMs = .ofNat span.1 ∧ outcome.durationMs = .ofNat span.2 := by
  have hmem : (outcome.waitedMs, outcome.durationMs)
      ∈ report.tasks.map fun outcome => (outcome.waitedMs, outcome.durationMs) :=
    List.mem_map_of_mem mem
  rw [h.tasks] at hmem
  obtain ⟨span, hspan, hshown⟩ := List.mem_map.mp hmem
  exact ⟨span, hspan, (Prod.mk.inj hshown).1.symm, (Prod.mk.inj hshown).2.symm⟩

namespace Crew

open State

variable {c : Crew} {request : Request} {s t first : State} {number : Nat} {job : Job}
  {capacity begun admitted : Nat} {opened now later : Int} {held : Nat → Nat}

/-! ## The readings of a run -/

/-- How often a run looks at the clock for a piece of work. -/
def looks (c : Crew) (s : State) : Work → Nat
  | .start number => if number ∈ c.jobs then ((s.jobs[number]?).map (·.body.looks)).getD 0 else 0
  | .finish number => if number ∈ c.jobs then 1 else 0
  | .release _ => 0
  | .conclude run => if run = c.run then 1 else 0

/-- What the clock shows to a run in a move. -/
def reads (c : Crew) (s : State) : Move → List Number
  | .arrive _ => []
  | .tick => s.readings ((s.queue.head?.map (c.looks s)).getD 0)

/-- What the clock shows to a run during a sequence of moves. -/
def readings (c : Crew) (s : State) : List Move → List Number
  | [] => []
  | m :: moves => c.reads s m ++ c.readings (s.move m) moves

theorem readings_concat (c : Crew) (s : State) (moves : List Move) (m : Move) :
    c.readings s (moves ++ [m]) = c.readings s moves ++ c.reads (s.after moves) m := by
  induction moves generalizing s with
  | nil => simp [readings]
  | cons move moves ih =>
    rw [List.cons_append, readings, ih, readings, List.append_assoc]
    rfl

theorem reads_of_queue {work : Work} (queue : s.queue = work :: s.popped.queue) :
    c.reads s .tick = s.popped.readings (c.looks s work) := by
  have hlooks : (s.queue.head?.map (c.looks s)).getD 0 = c.looks s work := by
    rw [queue]
    rfl
  change s.readings _ = _
  rw [hlooks]
  exact (readings_congr (s := s) (t := s.popped) ⟨rfl, rfl⟩ _).symm

/-! ## Time that is spent -/

/-- How the times of the jobs of a run lie, if each of them has held its slot for some time. -/
def Spent (c : Crew) (s : State) (opened now : Int) (held : Nat → Nat) : Prop :=
  c.Each s fun i job => job.Spends opened now (held i)

/-- The jobs of a run that hold slots are no more than there are slots. -/
theorem CarriesOut.holding_le (h : c.CarriesOut request s)
    (line : InLine capacity 0 s begun admitted) :
    (c.jobs.countP fun i => (s.jobs[i]?).any (·.phase.holds)) ≤ capacity := by
  -- the numbers of the jobs of the run are among those of all jobs
  have hsublist : c.jobs.Sublist (List.range s.jobs.length) := by
    rcases Nat.eq_zero_or_pos c.size with hzero | hpos
    · unfold jobs
      rw [hzero]
      exact List.nil_sublist _
    · unfold jobs
      rw [← filter_mem_range' (h.length_le hpos), List.range_eq_range']
      exact List.filter_sublist
  have hheld := line.held
  have hheld_le := line.held_le
  calc (c.jobs.countP fun i => (s.jobs[i]?).any (·.phase.holds))
      ≤ (List.range s.jobs.length).countP fun i => (s.jobs[i]?).any (·.phase.holds) :=
        hsublist.countP_le
    _ = s.jobs.countP (·.phase.holds) := (countP_eq_range _ _).symm
    _ ≤ capacity := by omega

/-- **Time passes** for no more jobs than there are slots, and for each job that holds one. -/
theorem Spent.elapse (h : c.Spent s opened now held) (carriesOut : c.CarriesOut request s)
    (line : InLine capacity 0 s begun admitted)
    (area : ((c.jobs.map held).sum : Int) ≤ capacity * (now - opened)) (le : now ≤ later) :
    ∃ held', c.Spent s opened later held' ∧
      ((c.jobs.map held').sum : Int) ≤ capacity * (later - opened) ∧
      ∀ i ∈ c.jobs, ∀ job, s.jobs[i]? = some job → job.phase.holds = true →
        later - now ≤ held' i := by
  -- the time that has passed is given to each job that holds a slot
  refine ⟨fun i => held i + if (s.jobs[i]?).any (·.phase.holds) then (later - now).toNat else 0,
    ?_, ?_, ?_⟩
  · intro i hi
    obtain ⟨job, hj, hspends⟩ := h i hi
    have helapsed := hspends.elapse le
    refine ⟨job, hj, ?_⟩
    dsimp only
    rw [hj]
    exact helapsed
  · -- no more jobs than slots hold one, so the area grows by at most all slots for this time
    have hcount := Nat.mul_le_mul_right (later - now).toNat (carriesOut.holding_le line)
    have hmore : ((capacity * (later - now).toNat : Nat) : Int) = capacity * (later - now) := by
      rw [Int.natCast_mul, Int.toNat_of_nonneg (Int.sub_nonneg_of_le le)]
    have hsplit : (capacity : Int) * (later - opened)
        = capacity * (now - opened) + capacity * (later - now) := by
      rw [← Int.mul_add]
      congr 1
      omega
    rw [sum_map_add_ite, hsplit, ← hmore]
    omega
  · intro i _ job hj hholds
    dsimp only
    rw [hj, Option.any_some, hholds, if_pos rfl]
    omega

/-- A stimulus takes no time. -/
theorem Spent.receive (h : c.Spent s opened now held) (stimulus : Stimulus) :
    c.Spent (s.receive stimulus) opened now held :=
  Each.receive h stimulus fun _ _ _ spends hhears hsame =>
    ⟨(congrArg Job.submitted hsame :) ▸ spends.submitted, hhears.spends spends.phase⟩

/-- **A tick keeps the times of a run** up to its last reading, once those who hold a slot have been
given the time that it takes. -/
theorem Spent.ticked (h : c.Spent s opened later held)
    (line : InLine capacity 0 s begun admitted) (carriesOut : c.CarriesOut request s)
    (ticked : Ticked s t) {times : List Int} (readings : c.reads s .tick = times.map .ofInt)
    (whole : ∀ time ∈ times, Number.Whole time) (ascending : (now :: times).Pairwise (· ≤ ·))
    (last : ∀ time ∈ times, time ≤ later) (last_mem : later ∈ now :: times)
    (submitted : ∀ i ∈ c.jobs, ∀ job, s.jobs[i]? = some job → ∃ submitted,
      opened ≤ submitted ∧ submitted ≤ now ∧ Number.Whole submitted ∧
        job.submitted = .ofInt submitted)
    (recent : ∀ i ∈ c.jobs, ∀ job, s.jobs[i]? = some job → job.phase.holds = true →
      later - now ≤ held i) : c.Spent t opened later held := by
  refine Each.ticked h line ticked ⟨fun i hi job hj => carriesOut.isTask hj hi, ?_, ?_, ?_, ?_⟩
  · intro i job spends _
    exact ⟨spends.submitted, trivial⟩
  · rintro i hmem job u phase queue hj ⟨hsubmitted, -⟩ granted opening
    have hlooks : c.looks s (.start i) = job.body.looks := by
      refine (if_pos hmem).trans ?_
      rw [hj]
      rfl
    rw [reads_of_queue queue, hlooks] at readings
    refine ⟨hsubmitted, opening.spends (carriesOut.isTask hj hmem) readings whole ascending last
      last_mem (submitted i hmem job hj) (recent i hmem job hj ?_)⟩
    rw [granted]
    rfl
  · rintro i hmem job times' ending u result queue ⟨hsubmitted, hspends⟩ settled noted
    have hlooks : c.looks s (.finish i) = 1 := if_pos hmem
    rw [reads_of_queue queue, hlooks] at readings
    obtain ⟨time, rest, rfl, htime, hnone⟩ := exists_of_readings readings
    obtain rfl := List.map_eq_nil_iff.mp hnone.symm
    -- the only reading of this tick is the last one
    have heq : later = time := by
      have hle := last time List.mem_cons_self
      have hfirst := (List.pairwise_cons.mp ascending).1 time List.mem_cons_self
      simp only [List.mem_cons, List.not_mem_nil, or_false] at last_mem
      omega
    subst heq
    rw [settled] at hspends
    exact ⟨hsubmitted, noted.spends htime (whole later List.mem_cons_self) hspends⟩
  · rintro i job result ⟨hsubmitted, hspends⟩ leaving
    rw [leaving] at hspends
    exact ⟨hsubmitted, hspends⟩

/-! ## Answers -/

theorem answer?_noteMessage (s : State) (run : Nat) (ending : Ending) :
    c.answer? (s.noteMessage run ending) = c.answer? s := by
  unfold answer?
  change ((s.runs.modify run _)[c.run]?).bind _ = _
  rw [List.getElem?_modify]
  cases s.runs[c.run]? with
  | none => rfl
  | some r => split <;> rfl

theorem answer?_congr (runs : t.runs = s.runs) : c.answer? t = c.answer? s := by
  unfold answer?
  rw [runs]

theorem answer?_of_noted {times : Times} {ending : Ending} {result : Result}
    (noted : Noted s number job times ending t result) : c.answer? t = c.answer? s := by
  cases noted with
  | call => rfl
  | outcome _ beside => exact (answer?_congr beside.runs).trans (answer?_noteMessage _ _ _)
  | crashed _ beside => exact (answer?_congr beside.runs).trans (answer?_noteMessage _ _ _)

theorem answer?_of_opening {phase : Phase} (opening : Opening s number job t phase) :
    c.answer? t = c.answer? s := by
  cases opening with
  | barred beside => exact answer?_congr beside.runs
  | running _ beside => exact answer?_congr ((arm_runs _ _ _).trans beside.runs)
  | settled _ beside => exact answer?_congr beside.runs
  | thrown _ beside _ noted => exact (answer?_of_noted noted).trans (answer?_congr beside.runs)

/-- A run that resolves in a tick does so in its conclusion. -/
theorem resolved_of_ticked (ticked : Ticked s t) {report : Report}
    (answer : c.answer? t = some (.ok report)) :
    c.answer? s = some (.ok report) ∨ s.queue = .conclude c.run :: s.popped.queue ∧
      ∃ run, s.runs[c.run]? = some run ∧ report = s.look.reportOf c.run run := by
  cases ticked with
  | quiet => exact Or.inl answer
  | started _ _ _ opening => exact Or.inl ((answer?_of_opening opening).symm.trans answer)
  | bounced _ _ _ bounced =>
    refine Or.inl ((answer?_congr ?_).symm.trans answer)
    exact (passOn_keeps _).2.1.trans bounced.beside.runs
  | finished _ _ _ noted => exact Or.inl ((answer?_of_noted noted).symm.trans answer)
  | @released number job result =>
    have hruns : (s.popped.place number (.finished result)).passOn.runs = s.runs :=
      (passOn_keeps _).2.1
    generalize (s.popped.place number (.finished result)).passOn = mid at answer hruns
    refine Or.inl ?_
    rw [← answer?_congr hruns]
    -- a crash is no report, and nothing else is an answer at this point
    unfold answer? at answer ⊢
    rw [reportBack_runs] at answer
    cases hrun : mid.runs[c.run]? with
    | none =>
      rw [hrun] at answer
      exact absurd answer (by simp)
    | some run =>
      rw [hrun] at answer
      cases result with
      | crashed fault =>
        simp only [Option.map_some, Option.bind_some] at answer ⊢
        split at answer
        · exact absurd answer (by simp)
        · exact answer
      | outcome | returned | threw => exact answer
  | @concluded number queue =>
    by_cases heq : number = c.run
    · subst heq
      rcases (conclude_own c s.popped).2 with hsame | ⟨-, run, hrun, hanswer⟩
      · exact Or.inl (hsame.symm.trans answer)
      · have hreport := eq_of_answerOf (Option.some.inj (hanswer.symm.trans answer))
        rw [look_popped] at hreport
        exact Or.inr ⟨queue, run, hrun, hreport.symm⟩
    · refine Or.inl ?_
      unfold answer? at answer ⊢
      rw [conclude_runs_ne heq] at answer
      exact answer

/-! ## The report -/

/-- The outcomes in a report show how the times of the jobs of the run lie. -/
theorem Spent.spans (h : c.Spent s opened now held) {report : Report}
    (reported : c.Reported s report) :
    ∃ spans : List (Nat × Nat),
      report.tasks.map (fun outcome => (outcome.waitedMs, outcome.durationMs))
        = spans.map (fun span => (.ofNat span.1, .ofNat span.2)) ∧
      (∀ span ∈ spans, opened + span.1 + span.2 ≤ now) ∧
      (spans.map Prod.snd).sum ≤ (c.jobs.map held).sum := by
  -- how long a task has waited and run is read off its outcome
  have htask : ∀ place, ∃ span : Nat × Nat, place < c.size →
      ∃ outcome, report.tasks[place]? = some outcome ∧ opened + span.1 + span.2 ≤ now ∧
        span.2 ≤ held (c.first + place) ∧
        (outcome.waitedMs, outcome.durationMs) = (.ofNat span.1, .ofNat span.2) := by
    intro place
    rcases Nat.lt_or_ge place c.size with hlt | hge
    · obtain ⟨outcome, houtcome, hresult⟩ := reported.task place hlt
      obtain ⟨job, hj, -, hspends⟩ := h _ (first_add_mem hlt)
      unfold result? at hresult
      rw [exit?_of_job hj] at hresult
      -- a job with a result is leaving or finished
      cases hp : job.phase with
      | leaving result | finished result =>
        rw [hp] at hresult hspends
        obtain ⟨waited, ran, hsum, hran, hshown, hshown'⟩ :=
          hspends outcome (Option.some.inj hresult)
        exact ⟨(waited, ran), fun _ => ⟨outcome, houtcome, hsum, hran, Prod.ext hshown hshown'⟩⟩
      | waiting | granted | running | settled =>
        rw [hp] at hresult
        exact absurd hresult (by simp [Phase.exit?])
    · exact ⟨(0, 0), fun hlt => absurd hlt (Nat.not_lt.mpr hge)⟩
  choose span htask using htask
  refine ⟨(List.range c.size).map span, ?_, ?_, ?_⟩
  · refine List.ext_getElem? fun place => ?_
    rw [List.map_map, List.getElem?_map, List.getElem?_map]
    rcases Nat.lt_or_ge place c.size with hlt | hge
    · obtain ⟨outcome, houtcome, -, -, hshown⟩ := htask place hlt
      rw [houtcome, List.getElem?_range hlt]
      exact congrArg some hshown
    · rw [List.getElem?_eq_none (by rw [reported.length]; exact hge),
        List.getElem?_eq_none (by rw [List.length_range]; exact hge)]
      rfl
  · intro entry hentry
    obtain ⟨place, hplace, rfl⟩ := List.mem_map.mp hentry
    obtain ⟨-, -, hsum, -⟩ := htask place (List.mem_range.mp hplace)
    exact hsum
  · unfold jobs
    rw [List.range'_eq_map_range, List.map_map, List.map_map]
    refine List.sum_le_sum fun place hplace => ?_
    obtain ⟨-, -, -, hran, -⟩ := htask place (List.mem_range.mp hplace)
    exact hran

/-- What holds of the times of a run at every moment. Now is what the run has last read off the
clock. -/
structure Timed (c : Crew) (capacity : Nat) (s : State) (opened now : Int) : Prop where
  le : opened ≤ now
  run : ∃ run, s.runs[c.run]? = some run ∧ run.startedAt = .ofInt opened
  area : ∃ held, c.Spent s opened now held ∧
    ((c.jobs.map held).sum : Int) ≤ capacity * (now - opened)
  adds : ∀ report, c.answer? s = some (.ok report) →
    ∃ total spans, report.Adds capacity opened total spans

theorem startedAt_of_fixed {more : List Run} {moment : Number}
    (fixed : t.runs.map Run.fixed = s.runs.map Run.fixed ++ more)
    (h : ∃ run, s.runs[c.run]? = some run ∧ run.startedAt = moment) :
    ∃ run, t.runs[c.run]? = some run ∧ run.startedAt = moment := by
  obtain ⟨run, hrun, hstarted⟩ := h
  obtain ⟨run', hrun', hsame⟩ := exists_of_map_append fixed hrun
  exact ⟨run', hrun', (congrArg Run.startedAt hsame).trans hstarted⟩

theorem Timed.receive (h : c.Timed capacity s opened now) (carriesOut : c.CarriesOut request s)
    (stimulus : Stimulus) : c.Timed capacity (s.receive stimulus) opened now := by
  obtain ⟨held, hspent, harea⟩ := h.area
  have hrun := congrArg (·[c.run]?) (receive_unsigned s stimulus)
  rw [List.getElem?_append_left (by rw [List.length_map]; exact carriesOut.lt_length),
    List.getElem?_map, List.getElem?_map] at hrun
  refine ⟨h.le, startedAt_of_fixed (receive_fixed s stimulus) h.run,
    ⟨held, hspent.receive stimulus, harea⟩, fun report hanswer => ?_⟩
  rw [answer?_of_unsigned hrun] at hanswer
  exact h.adds report hanswer

/-- The times of a run that is concluded add up. -/
theorem Timed.concluded (h : c.Timed capacity s opened now)
    (line : InLine capacity 0 s begun admitted) (origin : Number.Whole opened) (le : now ≤ later)
    (reading : s.look.clock = .ofInt later) (whole : Number.Whole later) {run : Run}
    (run_eq : s.runs[c.run]? = some run) (spends : c.Spent t opened later held)
    (area : ((c.jobs.map held).sum : Int) ≤ capacity * (later - opened))
    (reported : c.Reported t (s.look.reportOf c.run run)) :
    ∃ spans, (s.look.reportOf c.run run).Adds capacity opened (later - opened).toNat spans := by
  obtain ⟨spans, htasks, hwithin, hsum⟩ := spends.spans reported
  obtain ⟨run', hrun', hstarted⟩ := h.run
  obtain rfl := Option.some.inj (run_eq.symm.trans hrun')
  have hle : opened ≤ later := h.le.trans le
  have hlater : opened + ((later - opened).toNat : Int) = later := by omega
  -- the end is shown as the reading at which the run is concluded
  have hfinished : (s.look.reportOf c.run run).finishedAt
      = .ofInt (opened + ((later - opened).toNat : Int)) := by
    rw [hlater]
    exact reading
  refine ⟨spans, ?_, hstarted, hfinished, ⟨rfl, ?_⟩, htasks, fun span hspan => ?_, ?_⟩
  · change Number.ofNat s.look.slots.capacity = _
    rw [look_slots, line.capacity_eq]
  · change s.look.clock - run.startedAt = _
    rw [reading, hstarted, Number.ofInt_sub origin whole hle]
  · have := hwithin span hspan
    omega
  · -- all tasks together ran no longer than all slots were there
    refine hsum.trans ?_
    rw [← Int.toNat_of_nonneg (Int.sub_nonneg_of_le hle)] at area
    exact_mod_cast area

/-- **A tick keeps the times of a run**, up to what the run has last read off the clock. -/
theorem Timed.ticked (h : c.Timed capacity s opened now) (carriesOut : c.CarriesOut request s)
    (line : InLine capacity 0 s begun admitted) (ticked : Ticked s t) (origin : Number.Whole opened)
    {times : List Int} (readings : c.reads s .tick = times.map .ofInt)
    (whole : ∀ time ∈ times, Number.Whole time) (ascending : (now :: times).Pairwise (· ≤ ·))
    (reported : ∀ report, c.answer? t = some (.ok report) → c.Reported t report) :
    ∃ later ∈ now :: times, c.Timed capacity t opened later := by
  have hlast : ∀ time ∈ now :: times, time ≤ (now :: times).getLast (List.cons_ne_nil _ _) :=
    fun time htime => ascending.rel_getLast htime
  have hmem : (now :: times).getLast (List.cons_ne_nil _ _) ∈ now :: times := List.getLast_mem _
  generalize (now :: times).getLast (List.cons_ne_nil _ _) = later at hlast hmem
  have hle : now ≤ later := hlast now List.mem_cons_self
  -- everybody who holds a slot is given the time of this tick, and then the work is done
  obtain ⟨held, hspent, harea⟩ := h.area
  obtain ⟨held', helapsed, harea', hrecent⟩ := hspent.elapse carriesOut line harea hle
  have hsubmitted : ∀ i ∈ c.jobs, ∀ job, s.jobs[i]? = some job → ∃ submitted,
      opened ≤ submitted ∧ submitted ≤ now ∧ Number.Whole submitted ∧
        job.submitted = .ofInt submitted := by
    intro i hi job hj
    obtain ⟨job', hj', hspends⟩ := hspent i hi
    obtain rfl := Option.some.inj (hj.symm.trans hj')
    exact hspends.submitted
  have hnext := helapsed.ticked line carriesOut ticked readings whole ascending
    (fun time htime => hlast time (List.mem_cons_of_mem _ htime)) hmem hsubmitted hrecent
  refine ⟨later, hmem, h.le.trans hle,
    startedAt_of_fixed (ticked.fixed.trans (List.append_nil _).symm) h.run,
    ⟨held', hnext, harea'⟩, fun report hanswer => ?_⟩
  rcases resolved_of_ticked ticked hanswer with hold | ⟨hqueue, run, hrun, rfl⟩
  · exact h.adds report hold
  · have hlooks : c.looks s (.conclude c.run) = 1 := if_pos rfl
    rw [reads_of_queue hqueue, hlooks] at readings
    obtain ⟨time, rest, rfl, htime, hnone⟩ := exists_of_readings readings
    obtain rfl := List.map_eq_nil_iff.mp hnone.symm
    have heq : later = time := by
      have hsecond := hlast time (List.mem_cons_of_mem _ List.mem_cons_self)
      have hfirst := (List.pairwise_cons.mp ascending).1 time List.mem_cons_self
      simp only [List.mem_cons, List.not_mem_nil, or_false] at hmem
      omega
    subst heq
    rw [look_popped] at htime
    exact ⟨_, h.concluded line origin hle htime (whole later List.mem_cons_self) hrun hnext harea'
      (reported _ hanswer)⟩

/-! ## All moves -/

/-- The jobs of a run that has just been submitted have not held their slots for any time. -/
theorem timed_receive (request : Request) (enrolled : s.Enrolled) {rest : List Int}
    (readings : s.readings (request.tasks.length + 1) = (opened :: rest).map .ofInt)
    (whole : ∀ time ∈ opened :: rest, Number.Whole time)
    (ascending : (opened :: rest).Pairwise (· ≤ ·)) :
    ∃ now ∈ opened :: rest,
      (ofRequest s request).Timed capacity (s.receive (.settle request)) opened now := by
  have hlast : ∀ time ∈ opened :: rest, time ≤ (opened :: rest).getLast (List.cons_ne_nil _ _) :=
    fun time htime => ascending.rel_getLast htime
  have hmem : (opened :: rest).getLast (List.cons_ne_nil _ _) ∈ opened :: rest :=
    List.getLast_mem _
  generalize (opened :: rest).getLast (List.cons_ne_nil _ _) = now at hlast hmem
  have hle : opened ≤ now := hlast opened List.mem_cons_self
  have hrun : (s.receive (.settle request)).runs[s.runs.length]? = some (s.runFor request) := by
    change (s.submit request).runs[s.runs.length]? = _
    rw [submit_runs, List.getElem?_append_right (Nat.le_refl _), Nat.sub_self]
    rfl
  refine ⟨now, hmem, hle, ⟨_, hrun, (List.cons.inj readings).1⟩, ⟨fun _ => 0, ?_, ?_⟩,
    fun report hanswer => ?_⟩
  · refine each_receive enrolled fun i job hnew hphase => ⟨?_, ?_⟩
    · -- a job is submitted at one of the looks
      obtain ⟨⟨task, place⟩, hentry, hsame⟩ := List.mem_map.mp hnew
      have hlt : place < request.tasks.length := by
        have := (List.mem_zipIdx hentry).2.1
        omega
      have hlook := mem_readings (s := s) (Nat.succ_lt_succ hlt)
      rw [readings] at hlook
      obtain ⟨time, htime, heq⟩ := List.mem_map.mp hlook
      have hopened : opened ≤ time := by
        rcases List.mem_cons.mp htime with rfl | hlater
        · exact Int.le_refl time
        · exact (List.pairwise_cons.mp ascending).1 time hlater
      exact ⟨time, hopened, hlast time htime, whole time htime,
        (congrArg Job.submitted hsame).symm.trans heq.symm⟩
    · rcases hphase with hphase | hphase <;> rw [hphase] <;> trivial
  · have := Int.mul_nonneg (Int.natCast_nonneg capacity) (Int.sub_nonneg_of_le hle)
    simpa using this
  · change ((s.receive (.settle request)).runs[s.runs.length]?).bind (·.answer) = _ at hanswer
    rw [hrun] at hanswer
    exact absurd hanswer (by simp [runFor])

/-- **The times of a run are kept by every move**, as long as its readings do not go back. -/
theorem timed_after (positive : 0 < capacity) (clock : Number) (level : Log.Level) (shell : Shell)
    (before : List Move) (request : Request) (later : List Move) {start rest : List Int} :
    let origin := (fresh positive clock level shell).after before
    let first := origin.receive (.settle request)
    let c := ofRequest origin request
    origin.readings (request.tasks.length + 1) = (opened :: start).map .ofInt →
    c.readings first later = rest.map .ofInt →
    (∀ time ∈ opened :: start ++ rest, Number.Whole time) →
    (opened :: start ++ rest).Pairwise (· ≤ ·) →
      ∃ now ∈ opened :: start ++ rest, c.Timed capacity (first.after later) opened now := by
  intro origin first c submission readings whole ascending
  -- on the moves; each tick takes its share of the readings from the front of the rest
  induction later using List.reverseRecOn generalizing rest with
  | nil =>
    obtain rfl := List.map_eq_nil_iff.mp readings.symm
    rw [List.append_nil] at whole ascending ⊢
    exact timed_receive request (enrolled_after positive clock level shell before) submission whole
      ascending
  | append_singleton later m ih =>
    rw [readings_concat] at readings
    obtain ⟨early, last, rfl, hearly, hlast⟩ := List.map_eq_append_iff.mp readings.symm
    rw [← List.append_assoc] at whole ascending ⊢
    obtain ⟨now, hmem, htimed⟩ := ih hearly.symm
      (fun time htime => whole time (List.mem_append_left _ htime))
      (List.pairwise_append.mp ascending).1
    obtain ⟨hcarries, htracked⟩ := tracked_after positive clock level shell before request
      (later ++ [m])
    have hbefore := (tracked_after positive clock level shell before request later).1
    have hreported := htracked.answered
    rw [after_concat] at hreported ⊢
    cases m with
    -- nothing of the run is read when something arrives
    | arrive stimulus => exact ⟨now, List.mem_append_left _ hmem, htimed.receive hbefore stimulus⟩
    | tick =>
      -- the readings of this tick do not go back behind the last one before it
      obtain ⟨begun, admitted, hline⟩ := inLine_after positive clock level shell
        (before ++ .arrive (.settle request) :: later)
      rw [after_append] at hline
      have hpairwise : (now :: last).Pairwise (· ≤ ·) :=
        List.pairwise_cons.mpr ⟨fun time htime =>
          (List.pairwise_append.mp ascending).2.2 now hmem time htime,
          (List.pairwise_append.mp ascending).2.1⟩
      obtain ⟨time, htime, hnext⟩ := htimed.ticked hbefore hline hline.ticked
        (whole opened (by simp)) hlast.symm
        (fun time htime => whole time (List.mem_append_right _ htime)) hpairwise hreported
      refine ⟨time, ?_, hnext⟩
      rcases List.mem_cons.mp htime with rfl | hlater
      · exact List.mem_append_left _ hmem
      · exact List.mem_append_right _ hlater

/-- **The times in a report add up.** A run looks at the clock when it is opened and when each of
its tasks asks for a slot, twice when a task starts, when its body has ended, and when the run is
concluded. Each of these readings may be another one: log lines, hooks and bodies may take time. If
the readings are whole numbers that do not go back, then whatever else shares the slots, no task has
waited or run for less than no time or for longer than the run, and the report shows the differences
of the readings: they are such that waiting and running of a task fit into the time of the run, and
that all tasks together ran no longer than all slots could be used. A difference of more than 53
binary digits is shown as the number nearest to it, any other as it is. -/
theorem times_of_readings (positive : 0 < capacity) (clock : Number) (level : Log.Level)
    (shell : Shell) (before : List Move) (request : Request) (later : List Move)
    {report : Report} :
    let origin := (fresh positive clock level shell).after before
    let first := origin.receive (.settle request)
    let c := ofRequest origin request
    Number.Ascending (origin.readings (request.tasks.length + 1) ++ c.readings first later) →
    c.answer? (first.after later) = some (.ok report) →
      (∀ outcome ∈ report.tasks,
        Number.le 0 outcome.waitedMs = true ∧ Number.le 0 outcome.durationMs = true ∧
        Number.le outcome.waitedMs report.durationMs = true ∧
        Number.le outcome.durationMs report.durationMs = true) ∧
      ∃ opened total spans, report.Adds capacity opened total spans ∧
        (total ≤ Number.exactBound → Number.Whole total ∧
          ∀ span ∈ spans, Number.Whole span.1 ∧ Number.Whole span.2) := by
  intro origin first c ascending hanswer
  obtain ⟨times, hreadings, hwhole, hpairwise⟩ := ascending
  -- the first reading is the start of the run
  obtain ⟨start, rest, rfl, hstart, hrest⟩ := List.map_eq_append_iff.mp hreadings.symm
  obtain ⟨opened, start, rfl, -, -⟩ := exists_of_readings hstart.symm
  obtain ⟨now, -, htimed⟩ := timed_after positive clock level shell before request later
    hstart.symm hrest.symm hwhole hpairwise
  obtain ⟨total, spans, hadds⟩ := htimed.adds report hanswer
  refine ⟨fun outcome hmem => ?_, opened, total, spans, hadds, fun hexact => ?_⟩
  · obtain ⟨span, hspan, hwaited, hran⟩ := hadds.exists_span hmem
    have hwithin := hadds.within span hspan
    rw [hadds.durationMs.2, hwaited, hran]
    exact ⟨Number.ofNat_mono (Nat.zero_le _), Number.ofNat_mono (Nat.zero_le _),
      Number.ofNat_mono (by omega), Number.ofNat_mono (by omega)⟩
  · -- a span lies within the run, so it is exact where the total is
    refine ⟨Number.Whole.of_le hexact, fun span hspan => ?_⟩
    have hwithin := hadds.within span hspan
    exact ⟨Number.Whole.of_le (by omega), Number.Whole.of_le (by omega)⟩

/-- A call that holds the only slot. The submission that comes next takes some time. -/
def slowStart : List Move :=
  [.arrive (.call "other" (.manual none) false), .tick, .arrive (.setLags [1, 0, 2, 1])]

/-- Three tasks that wait for the call, and a start hook. The second task throws at once. -/
def threeWaiting : Request :=
  { label := "run"
    hooks := { onStart := some { throws := fun _ => none } }
    tasks :=
      [{ name := none, body := .timed 5 (.returned .absent) none },
       { name := none, body := .immediate (.thrown (.text "a")) },
       { name := none, body := .manual none }] }

/-- The clock moves between pieces of work, and while they are done: a hook takes a millisecond and
another one two, and the body that throws takes four. -/
def movingClock : List Move :=
  [.arrive (.setClock 6), .arrive (.finish 0 (.returned .absent)), .tick,
   .arrive (.setLags [1, 1]), .tick, .arrive (.fire 0), .arrive (.setClock 20), .tick, .tick,
   .arrive (.setLags [0, 2, 4]), .tick, .tick, .tick,
   .arrive (.setClock 30), .arrive (.finish 3 (.returned .absent)), .tick, .tick,
   .arrive (.setClock 31), .tick]

theorem times_of_movingClock :
    let origin := (fresh Nat.one_pos 0 .info []).after slowStart
    let first := origin.receive (.settle threeWaiting)
    let c := ofRequest origin threeWaiting
    origin.readings 4 ++ c.readings first movingClock
        = [1, 1, 3, 4, 7, 8, 20, 20, 22, 26, 26, 26, 30, 31] ∧
      ∃ report, c.answer? (first.after movingClock) = some (.ok report) ∧
        report.tasks.map (fun outcome => (outcome.waitedMs, outcome.durationMs))
          = [(6, 12), (17, 4), (22, 4)] ∧
        ∃ opened total spans, report.Adds 1 opened total spans := by
  intro origin first c
  have hreadings : origin.readings 4 ++ c.readings first movingClock
      = ([1, 1, 3, 4, 7, 8, 20, 20, 22, 26, 26, 26, 30, 31] : List Int).map Number.ofInt := by
    decide +kernel
  have hwhole : ∀ time ∈ ([1, 1, 3, 4, 7, 8, 20, 20, 22, 26, 26, 26, 30, 31] : List Int),
      time.natAbs ≤ Number.exactBound := by
    decide
  -- the times that are shown are computed; that they add up is the theorem
  have hshown : ((c.answer? (first.after movingClock)).bind (·.toOption)).map
      (fun report => report.tasks.map fun outcome => (outcome.waitedMs, outcome.durationMs))
      = some [(6, 12), (17, 4), (22, 4)] := by
    decide +kernel
  obtain ⟨report, hreport, htasks⟩ := Option.map_eq_some_iff.mp hshown
  have hanswer := eq_ok_of_toOption hreport
  obtain ⟨-, opened, total, spans, hadds, -⟩ := times_of_readings Nat.one_pos 0 .info [] slowStart
    threeWaiting movingClock ⟨_, hreadings, fun time hmem => .of_le (hwhole time hmem), by decide⟩
    hanswer
  exact ⟨hreadings, report, hanswer, htasks, opened, total, spans, hadds⟩

/-- A call that holds the only slot for more than 53 binary digits of milliseconds, and one that
waits for it. -/
def longCalls : List Move :=
  [.arrive (.call "h" (.timed 9007199254740994 (.returned .absent) none) true), .tick,
   .arrive (.call "k" (.timed 1 (.returned .absent) none) true)]

/-- A run that begins with the first date and waits for both calls. What its task has waited and
what the run has taken are shown as numbers near to them, and so the task seems to take longer than
the run. -/
theorem times_of_longCalls :
    let opened : Int := -Timestamp.bound
    let request : Request :=
      { label := "run", tasks := [{ name := none, body := .timed 2 (.returned .absent) none }] }
    let later : List Move :=
      (List.replicate 3 [.arrive (.fire 0), .tick, .tick, .tick]).flatten
    let origin := (fresh Nat.one_pos (.ofInt opened) .info []).after longCalls
    let first := origin.receive (.settle request)
    let c := ofRequest origin request
    Number.Ascending (origin.readings 2 ++ c.readings first later) ∧
      ∃ report outcome, c.answer? (first.after later) = some (.ok report) ∧
        report.tasks = [outcome] ∧
        Number.lt report.durationMs (outcome.waitedMs + outcome.durationMs) = true := by
  intro opened request later origin first c
  have hreadings : origin.readings 2 ++ c.readings first later
      = ([-8640000000000000, -8640000000000000, 367199254740995, 367199254740995,
          367199254740997, 367199254740997] : List Int).map Number.ofInt := by
    decide +kernel
  -- every reading can be shown exactly, and it is their differences that cannot
  have hwhole : ∀ time ∈ ([-8640000000000000, -8640000000000000, 367199254740995,
      367199254740995, 367199254740997, 367199254740997] : List Int),
      time.natAbs ≤ Number.exactBound := by
    decide
  have hshown : ((c.answer? (first.after later)).bind (·.toOption)).map
      (fun report => (report.tasks.length, report.tasks.map fun outcome =>
        Number.lt report.durationMs (outcome.waitedMs + outcome.durationMs)))
      = some (1, [true]) := by
    decide +kernel
  obtain ⟨report, hreport, htasks⟩ := Option.map_eq_some_iff.mp hshown
  obtain ⟨outcome, hsingle⟩ := List.length_eq_one_iff.mp (Prod.mk.inj htasks).1
  have hlonger := (Prod.mk.inj htasks).2
  rw [hsingle] at hlonger
  exact ⟨⟨_, hreadings, fun time hmem => .of_le (hwhole time hmem), by decide⟩, report, outcome,
    eq_ok_of_toOption hreport, hsingle, (List.cons.inj hlonger).1⟩

end Crew

end BoundedJobs
