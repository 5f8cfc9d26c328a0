import BoundedJobs.Proofs.Runner.Heard
import BoundedJobs.Proofs.Runner.Plan
import BoundedJobs.Proofs.Runner.Readings

/-!
# A runner that is left to its alarms

Once a run of commands has been submitted and nobody interferes, its runner goes on by its alarms
alone: one timer fires after the other, and all work is done in between. It comes to a stop, and by
then every child has been heard from.

* `Number.IsMoment`, `Number.IsWait` — when alarms go off, and how far ahead they are set;
* `State.Attended` — every command in progress has an alarm that will end it;
* `State.forthcoming` — a bound on the alarms that can still go off. Work never raises it
  (`Attended.tick`), and each alarm lowers it (`Attended.fire`);
* `Attended.fireWithin` — so the alarms run out, and what happens until then is a sequence of moves
  none of which submits anything;
* `halted_of_runUntil` — the whole way of a runner from the submission on.
-/

namespace BoundedJobs

/-! ## Moments -/

namespace Number

variable {a b c : Number}

theorem le_trans (h : le a b = true) (h' : le b c = true) : le a c = true := by
  cases a <;> cases b <;> cases c <;>
    first
    | exact le_finite_iff.mpr ((le_finite_iff.mp h).trans (le_finite_iff.mp h'))
    | grind [le, lt]

theorem le_refl (ha : a ≠ nan) : le a a = true := by
  unfold le
  rw [beq_self_eq_true, Bool.true_and, Bool.or_eq_true]
  exact .inr (bne_iff_ne.mpr ha)

theorem le_max (ha : a ≠ nan) (hb : b ≠ nan) : le a (a.max b) = true := by
  unfold Number.max
  rw [if_neg (by simp [ha, hb])]
  split
  · next hlt =>
    unfold le
    rw [hlt, Bool.true_or]
  · exact le_refl ha

/-- A number at which an alarm can go off: it has a place in the order of times, and is a reading of
the clock if it is a date. -/
def IsMoment (n : Number) : Prop := n ≠ nan ∧ (Timestamp.InRange n → n.IsReading)

/-- A time that can be waited: some milliseconds, or for ever. -/
def IsWait (n : Number) : Prop := n.IsReading ∨ n = infinity false

theorem IsReading.ne_nan (h : a.IsReading) : a ≠ nan := by
  rintro rfl
  exact absurd h.inRange (by decide)

theorem IsReading.isMoment (h : a.IsReading) : a.IsMoment := ⟨h.ne_nan, fun _ => h⟩

theorem IsMoment.max (ha : a.IsMoment) (hb : b.IsMoment) : (a.max b).IsMoment := by
  unfold Number.max
  rw [if_neg (by simp [ha.1, hb.1])]
  split
  · exact hb
  · exact ha

theorem isReading_of_inRange {i : Int} (h : Timestamp.InRange (finite i)) :
    (finite (i : Rat)).IsReading := by
  have hlow : ofInt (-Timestamp.bound) = finite ((-Timestamp.bound : Int) : Rat) :=
    whole_of_natAbs_le_bound (by simp)
  have hhigh : ofInt Timestamp.bound = finite ((Timestamp.bound : Int) : Rat) :=
    whole_of_natAbs_le_bound (by simp)
  obtain ⟨hle, hge⟩ := h
  rw [hlow, le_intCast_iff] at hle
  rw [hhigh, le_intCast_iff] at hge
  have hi : i.natAbs ≤ Timestamp.bound := by omega
  exact ⟨i, hi, (whole_of_natAbs_le_bound hi).symm⟩

/-- **An alarm that is set while the clock shows a reading** goes off at a moment. -/
theorem IsReading.isMoment_add (ha : a.IsReading) (hb : b.IsWait) : (a + b).IsMoment := by
  obtain ⟨i, hi, rfl⟩ := ha
  rcases hb with ⟨j, hj, rfl⟩ | rfl
  · -- a sum of two readings is a difference of two
    have hi' := whole_of_natAbs_le_bound hi
    have hj' := whole_of_natAbs_le_bound hj
    have hspan : (ofInt i + ofInt j).IsSpan := by
      refine ⟨ofInt i, ofInt (-j), ⟨i, hi, rfl⟩, ⟨-j, by rwa [Int.natAbs_neg], rfl⟩, ?_⟩
      rw [hi'.add hj', hi'.sub hj'.neg, Int.sub_neg]
    obtain ⟨k, -, -, hk⟩ := hspan.exists_whole
    rw [hk]
    exact ⟨Number.noConfusion, isReading_of_inRange⟩
  · have hsum : ofInt i + infinity false = infinity false := by
      rw [show ofInt i = finite (i : Rat) from whole_of_natAbs_le_bound hi]
      rfl
    rw [hsum]
    exact ⟨Number.noConfusion, fun h => absurd h (by decide)⟩

end Number

/-- A body that has settled is not in progress. -/
theorem Job.isRunning_ended (job : Job) (times : Times) (ending : Ending) :
    (job.ended times ending).isRunning = false := by
  unfold Job.ended
  split <;> rfl

namespace State

variable {s t : State} {number place : Nat} {timer : Timer} {stop : State → Bool}
  {capacity begun admitted : Nat}

/-! ## The next alarm -/

theorem foldl_sooner_mem (candidates : List (Timer × Nat)) :
    (candidates.foldl sooner none = none ∧ candidates = []) ∨
      ∃ first ∈ candidates, candidates.foldl sooner none = some first := by
  -- on the last candidate, against the best of those before it
  induction candidates using List.reverseRecOn with
  | nil => exact .inl ⟨rfl, rfl⟩
  | append_singleton candidates last ih =>
    right
    have hlast : last ∈ candidates ++ [last] :=
      List.mem_append_right _ (List.mem_singleton_self last)
    rw [List.foldl_append]
    rcases ih with ⟨hnone, -⟩ | ⟨first, hmem, hfirst⟩
    · rw [hnone]
      exact ⟨last, hlast, rfl⟩
    · rw [hfirst, List.foldl_cons, List.foldl_nil]
      unfold sooner
      dsimp only
      split
      · exact ⟨last, hlast, rfl⟩
      · exact ⟨first, List.mem_append_left _ hmem, rfl⟩

/-- The next alarm is one that is due. If there is none, none is due. -/
theorem nextTimer?_cases (isDue : Number → Bool) (timers : List Timer) :
    (nextTimer? isDue timers = none ∧ ∀ timer ∈ timers, isDue timer.due = false) ∨
      ∃ place timer, nextTimer? isDue timers = some place ∧ timers[place]? = some timer ∧
        isDue timer.due = true := by
  have hfold : nextTimer? isDue timers
      = ((timers.zipIdx.filter fun entry => isDue entry.1.due).foldl sooner none).map Prod.snd :=
    rfl
  rw [hfold]
  rcases foldl_sooner_mem (timers.zipIdx.filter fun entry => isDue entry.1.due) with
    ⟨hnone, hempty⟩ | ⟨⟨timer, place⟩, hmem, hsome⟩
  · left
    rw [hnone]
    -- an alarm that is due would be a candidate
    refine ⟨rfl, fun timer htimer => ?_⟩
    obtain ⟨place, hplace⟩ := List.getElem?_of_mem htimer
    have hentry : (timer, place) ∈ timers.zipIdx := List.mk_mem_zipIdx_iff_getElem?.mpr hplace
    by_contra hdue
    have hcandidate : (timer, place) ∈ timers.zipIdx.filter fun entry => isDue entry.1.due :=
      List.mem_filter.mpr ⟨hentry, (Bool.not_eq_false _).mp hdue⟩
    rw [hempty] at hcandidate
    exact absurd hcandidate List.not_mem_nil
  · right
    obtain ⟨hentry, hdue⟩ := List.mem_filter.mp hmem
    rw [hsome]
    exact ⟨place, timer, rfl, List.mk_mem_zipIdx_iff_getElem?.mp hentry, hdue⟩

/-! ## Alarms for all commands in progress -/

/-- Every job is a command, every command in progress has an alarm that will end it, and time only
passes when an alarm goes off. -/
structure Attended (s : State) : Prop where
  commands : ∀ job ∈ s.jobs, ∃ line quiet, job.body = .command line quiet ∧
    (s.shell.child line).delay.IsWait
  awaited : ∀ i ∈ s.bodies, ∃ timer ∈ s.timers, ∃ report, timer.alarm = .child i report
  moments : ∀ timer ∈ s.timers, timer.due.IsMoment
  unlagged : s.lags = []

theorem Attended.commands_only (h : s.Attended) :
    ∀ job ∈ s.jobs, ∃ line quiet, job.body = .command line quiet := by
  intro job hmem
  obtain ⟨line, quiet, hbody, -⟩ := h.commands job hmem
  exact ⟨line, quiet, hbody⟩

/-- A bound on the alarms that can still go off: those that have been set, one for each command that
has not begun, and one for each command when the run is aborted. -/
def forthcoming (s : State) (begun : Nat) : Nat :=
  s.timers.length + (s.jobs.length - begun) + s.signals.count .armed * s.jobs.length

theorem mem_bodies_place {phase : Phase} {i : Nat} (h : i ∈ (s.place number phase).bodies) :
    i = number ∧ phase.isRunning = true ∨ i ≠ number ∧ i ∈ s.bodies := by
  obtain ⟨job, hj, hrunning⟩ := mem_jobsIn.mp h
  change (s.jobs.modify number fun j => { j with phase })[i]? = some job at hj
  by_cases heq : i = number
  · subst heq
    rw [List.getElem?_modify_eq] at hj
    obtain ⟨old, -, rfl⟩ := Option.map_eq_some_iff.mp hj
    exact .inl ⟨rfl, hrunning⟩
  · rw [List.getElem?_modify_ne _ _ (Ne.symm heq)] at hj
    exact .inr ⟨heq, mem_jobsIn.mpr ⟨job, hj, hrunning⟩⟩

theorem bodies_congr (jobs : t.jobs = s.jobs) : t.bodies = s.bodies := by
  unfold bodies jobsIn
  rw [jobs]

/-- A job that moves on to a phase in which its body is not in progress. -/
theorem bodies_place_subset {phase : Phase} (rests : phase.isRunning = false) :
    (s.place number phase).bodies ⊆ s.bodies := by
  intro i hi
  rcases mem_bodies_place hi with ⟨-, hrunning⟩ | ⟨-, hold⟩
  · exact absurd (hrunning.symm.trans rests) (by simp)
  · exact hold

theorem bodies_passOn_subset (s : State) : s.passOn.bodies ⊆ s.bodies := by
  cases hw : s.slots.waiters with
  | nil =>
    rw [passOn_of_idle hw]
    exact List.Subset.refl _
  | cons next others =>
    rw [passOn_of_waiting hw]
    exact bodies_place_subset (s := { s with slots := { s.slots with waiters := others } }) rfl

theorem length_jobs_of_unphased (unphased : t.jobs.map Job.unphased = s.jobs.map Job.unphased) :
    t.jobs.length = s.jobs.length := by
  have hlength := congrArg List.length unphased
  rwa [List.length_map, List.length_map] at hlength

theorem Attended.commands_of_unphased (h : s.Attended)
    (unphased : t.jobs.map Job.unphased = s.jobs.map Job.unphased) (shell : t.shell = s.shell) :
    ∀ job ∈ t.jobs, ∃ line quiet, job.body = .command line quiet ∧
      (t.shell.child line).delay.IsWait := by
  intro job hmem
  obtain ⟨i, hi⟩ := List.getElem?_of_mem hmem
  obtain ⟨old, hold, hsame⟩ := exists_of_map_append
    (unphased.symm.trans (List.append_nil _).symm) hi
  obtain ⟨line, quiet, hbody, hdelay⟩ := h.commands old (List.mem_of_getElem? hold)
  refine ⟨line, quiet, ?_, shell ▸ hdelay⟩
  rw [← hbody]
  exact (congrArg Job.body hsame :).symm

/-- Jobs may move on and alarms may be set, if each command that begins gets one. -/
theorem Attended.set (h : s.Attended) {more : List Timer}
    (unphased : t.jobs.map Job.unphased = s.jobs.map Job.unphased) (shell : t.shell = s.shell)
    (timers : t.timers = s.timers ++ more) (moments : ∀ timer ∈ more, timer.due.IsMoment)
    (lags : t.lags = s.lags) (awaited : ∀ i ∈ t.bodies, i ∈ s.bodies ∨ ∃ timer ∈ more, ∃ report,
      timer.alarm = .child i report) : t.Attended where
  commands := h.commands_of_unphased unphased shell
  awaited := by
    intro i hi
    rw [timers]
    -- a body that was there keeps its alarm, and a new one brings its own
    rcases awaited i hi with hold | ⟨timer, hmem, hreport⟩
    · obtain ⟨timer, hmem, hreport⟩ := h.awaited i hold
      exact ⟨timer, List.mem_append_left _ hmem, hreport⟩
    · exact ⟨timer, List.mem_append_right _ hmem, hreport⟩
  moments := by
    intro timer hmem
    rw [timers] at hmem
    rcases List.mem_append.mp hmem with hold | hnew
    · exact h.moments timer hold
    · exact moments timer hnew
  unlagged := lags.trans h.unlagged

/-! ## Work -/

theorem Noted.timers {job : Job} {times : Times} {ending : Ending} {result : Result}
    (h : Noted s number job times ending t result) : t.timers = s.timers := by
  cases h with
  | call => rfl
  | outcome _ beside => exact beside.timers
  | crashed _ beside => exact beside.timers

/-- What a command that moves on to a phase when it begins does about alarms: it sets one at most,
and one if its body goes on. -/
structure Sets (s t : State) (number : Nat) (line : String) (phase : Phase) (more : List Timer) :
    Prop where
  timers : t.timers = s.timers ++ more
  few : more.length ≤ 1
  due : ∀ timer ∈ more, timer.due = t.clock + (t.shell.child line).delay
  alarm : phase.isRunning = true → ∃ timer ∈ more, ∃ report, timer.alarm = .child number report

theorem Sets.none {line : String} {phase : Phase} (timers : t.timers = s.timers)
    (rests : phase.isRunning = false) : Sets s t number line phase [] where
  timers := timers.trans (List.append_nil _).symm
  few := Nat.zero_le 1
  due := fun _ hmem => absurd hmem List.not_mem_nil
  alarm := fun hrunning => absurd (hrunning.symm.trans rests) (by simp)

theorem Opening.sets {job : Job} {phase : Phase} {line : String} {quiet : Bool}
    (h : Opening s number job t phase) (body : job.body = .command line quiet) :
    ∃ more, Sets s t number line phase more := by
  cases h with
  | barred beside => exact ⟨[], .none beside.timers rfl⟩
  | @running mid _ beside =>
    rw [body]
    refine ⟨_, congrArg (· ++ _) beside.timers, Nat.le_refl 1, fun timer hmem => ?_,
      fun _ => ⟨_, List.mem_singleton_self _, _, rfl⟩⟩
    rw [List.mem_singleton.mp hmem]
    rfl
  | settled _ beside => exact ⟨[], .none beside.timers (job.isRunning_ended _ _)⟩
  | thrown thrown => exact absurd (body.symm.trans thrown) (by simp)

/-- **Work** sets an alarm only for a command that begins. -/
theorem Attended.tick (h : s.Attended) (line : InLine capacity 0 s begun admitted)
    (now : s.clock.IsReading) :
    ∃ begun' admitted', InLine capacity 0 s.tick begun' admitted' ∧ s.tick.Attended ∧
      s.tick.forthcoming begun' ≤ s.forthcoming begun := by
  obtain ⟨asked, hasks, -⟩ := tick_asks s
  have hticked := line.ticked
  have hunphased := hticked.unphased
  have hlength := length_jobs_of_unphased hunphased
  have htime := hticked.sameTime h.unlagged
  have hshell := hasks.shell
  have hsignals := hasks.signals
  generalize s.tick = t at hticked hunphased hlength htime hshell hsignals
  -- most work sets no alarm
  have hquiet : ∀ admitted', InLine capacity 0 t begun admitted' → t.timers = s.timers →
      t.bodies ⊆ s.bodies → ∃ begun' admitted', InLine capacity 0 t begun' admitted' ∧
        t.Attended ∧ t.forthcoming begun' ≤ s.forthcoming begun := by
    intro admitted' hline htimers hbodies
    refine ⟨begun, admitted', hline, h.set hunphased hshell
      (htimers.trans (List.append_nil _).symm) (fun timer hmem => absurd hmem List.not_mem_nil)
      htime.lags fun i hi => .inl (hbodies hi), ?_⟩
    unfold forthcoming
    rw [htimers, hlength, hsignals]
  cases hticked with
  | quiet => exact hquiet admitted line rfl (List.Subset.refl _)
  | @started number job t phase queue job_eq granted opening =>
    obtain ⟨command, quiet, hbody, hdelay⟩ := h.commands job (List.mem_of_getElem? job_eq)
    obtain ⟨more, sets⟩ := opening.sets hbody
    have hline := line.started queue job_eq granted opening
    have hbegun := hline.marked.begun_le.trans hline.marked.admitted_le
    change t.shell = s.shell at hshell
    refine ⟨begun + 1, admitted, hline, h.set hunphased hshell sets.timers (fun timer hmem => ?_)
      htime.lags (fun i hi => ?_), ?_⟩
    · have hclock : t.clock = s.clock := htime.clock
      rw [sets.due timer hmem, hshell, hclock]
      exact now.isMoment_add hdelay
    · rcases mem_bodies_place hi with ⟨rfl, hrunning⟩ | ⟨-, hold⟩
      · exact .inr (sets.alarm hrunning)
      · exact .inl (bodies_congr (s := s) opening.sameLine.jobs ▸ hold)
    · -- the new alarm is the one that the command was counted for
      have htimers : t.timers.length = s.timers.length + more.length :=
        (congrArg List.length sets.timers).trans List.length_append
      have hfew := sets.few
      unfold forthcoming
      rw [hsignals]
      rw [hlength] at hbegun ⊢
      change t.timers.length + (s.jobs.length - (begun + 1)) + _ ≤ _
      omega
  | @bounced _ job _ _ _ job_eq _ bounced =>
    -- no command is a function that throws
    obtain ⟨command, quiet, hbody, -⟩ := h.commands job (List.mem_of_getElem? job_eq)
    exact absurd (hbody.symm.trans bounced.body) (by simp)
  | finished queue job_eq settled noted =>
    refine hquiet admitted (line.finished queue job_eq settled noted) noted.timers ?_
    exact fun i hi => bodies_congr (s := s) noted.sameLine.jobs ▸ bodies_place_subset rfl hi
  | @released number job result queue job_eq leaving =>
    obtain ⟨admitted', hline⟩ := line.released queue job_eq leaving
    obtain ⟨hjobs, -, htimers, -⟩ :=
      reportBack_keeps (s.popped.place number (.finished result)).passOn job result
    obtain ⟨-, -, -, hpassed, -⟩ := passOn_keeps (s.popped.place number (.finished result))
    refine hquiet admitted' hline (htimers.trans hpassed) fun i hi => ?_
    rw [bodies_congr hjobs] at hi
    exact bodies_place_subset (s := s.popped) rfl (bodies_passOn_subset _ hi)
  | @concluded number queue =>
    refine hquiet admitted (line.concluded queue) (conclude_keeps s.popped number).2.1
      fun i hi => ?_
    exact bodies_congr (s := s) (conclude_sameLine s.popped number).jobs ▸ hi

/-! ## Alarms that go off -/

/-- A body that ends is no longer in progress, and nothing else changes. -/
theorem settleJob_keeps (s : State) (number : Nat) (ending : Ending) :
    (s.settleJob number ending).jobs.map Job.unphased = s.jobs.map Job.unphased ∧
      (s.settleJob number ending).timers = s.timers ∧
      (s.settleJob number ending).runs = s.runs ∧
      ∀ i ∈ (s.settleJob number ending).bodies, i ∈ s.bodies ∧ i ≠ number := by
  -- a job whose body is not in progress is not among the bodies
  have hstill : (∀ job times, s.jobs[number]? = some job → job.phase ≠ .running times) →
      ∀ i ∈ s.bodies, i ∈ s.bodies ∧ i ≠ number := by
    rintro hrests i hi
    refine ⟨hi, ?_⟩
    rintro rfl
    obtain ⟨job, hj, hrunning⟩ := mem_jobsIn.mp hi
    cases hp : job.phase with
    | running times => exact hrests job times hj hp
    | waiting | granted | settled | leaving | finished =>
      rw [hp] at hrunning
      cases hrunning
  unfold settleJob
  simp only [settle_eq_place]
  split
  · next hnone =>
    exact ⟨rfl, rfl, rfl, hstill fun job times hj => absurd (hnone.symm.trans hj) (by simp)⟩
  · next job hj =>
    split
    · next times hp =>
      refine ⟨place_unphased s number _, rfl, rfl, fun i hi => ?_⟩
      rcases mem_bodies_place hi with ⟨-, hrunning⟩ | ⟨hne, hold⟩
      · exact absurd (hrunning.symm.trans (job.isRunning_ended _ _)) (by simp)
      · exact ⟨hold, hne⟩
    · next hp =>
      refine ⟨rfl, rfl, rfl, hstill fun other times hother => ?_⟩
      obtain rfl := Option.some.inj (hj.symm.trans hother)
      exact hp times

/-- The report of a child ends its command. -/
theorem childReports_keeps (number : Nat) (report : ChildReport)
    (commands : ∀ job ∈ s.jobs, ∃ line quiet, job.body = .command line quiet) :
    ∃ ending, s.childReports number report = s.settleJob number ending := by
  unfold childReports
  cases hj : s.jobs[number]? with
  | none =>
    refine ⟨default, ?_⟩
    unfold settleJob
    rw [hj]
  | some job =>
    obtain ⟨line, quiet, hbody⟩ := commands job (List.mem_of_getElem? hj)
    dsimp only
    rw [hbody]
    exact ⟨_, rfl⟩

/-- Between `s` and `t` the children of some jobs have been sent a signal, and nothing else has
happened. Those that heed it have an alarm for it. -/
structure Warned (s t : State) (kills : List Timer) : Prop where
  jobs : t.jobs = s.jobs
  runs : t.runs = s.runs
  clock : t.clock = s.clock
  timers : t.timers = s.timers ++ kills
  due : ∀ timer ∈ kills, timer.due = s.clock + 0

theorem Warned.refl (s : State) : Warned s s [] :=
  ⟨rfl, rfl, rfl, (List.append_nil _).symm, fun _ hmem => absurd hmem List.not_mem_nil⟩

theorem Warned.trans {u : State} {first second : List Timer} (h : Warned s t first)
    (h' : Warned t u second) : Warned s u (first ++ second) where
  jobs := h'.jobs.trans h.jobs
  runs := h'.runs.trans h.runs
  clock := h'.clock.trans h.clock
  timers := by rw [h'.timers, h.timers, List.append_assoc]
  due := by
    intro timer hmem
    rcases List.mem_append.mp hmem with hfirst | hsecond
    · exact h.due timer hfirst
    · rw [h'.due timer hsecond, h.clock]

theorem abortJob_warned (commands : ∀ job ∈ s.jobs, ∃ line quiet, job.body = .command line quiet)
    (number : Nat) : ∃ kills, Warned s (s.abortJob number) kills ∧ kills.length ≤ 1 := by
  have hnone : ∃ kills, Warned s s kills ∧ kills.length ≤ 1 := ⟨[], .refl s, Nat.zero_le 1⟩
  unfold abortJob
  split
  · exact hnone
  · next job hj =>
    split
    · unfold kill
      dsimp only
      split
      · exact ⟨[], ⟨rfl, rfl, rfl, (List.append_nil _).symm,
          fun _ hmem => absurd hmem List.not_mem_nil⟩, Nat.zero_le 1⟩
      · exact ⟨_, ⟨rfl, rfl, rfl, rfl, fun timer hmem => by rw [List.mem_singleton.mp hmem]⟩,
          Nat.le_refl 1⟩
    · -- every job is a command, so no other body can answer the abort
      next hbody =>
      obtain ⟨line, quiet, hcommand⟩ := commands job (List.mem_of_getElem? hj)
      exact absurd hcommand (hbody line quiet)
    · exact hnone

theorem foldl_abortJob_warned
    (commands : ∀ job ∈ s.jobs, ∃ line quiet, job.body = .command line quiet)
    (numbers : List Nat) :
    ∃ kills, Warned s (numbers.foldl abortJob s) kills ∧ kills.length ≤ numbers.length := by
  induction numbers generalizing s with
  | nil => exact ⟨[], .refl s, Nat.le_refl 0⟩
  | cons number numbers ih =>
    obtain ⟨first, hfirst, hone⟩ := abortJob_warned commands number
    obtain ⟨others, hothers, hfew⟩ := ih (hfirst.jobs ▸ commands)
    refine ⟨first ++ others, hfirst.trans hothers, ?_⟩
    rw [List.length_append, List.length_cons]
    omega

theorem abort_signals_eq (armed : s.signals[number]? = some .armed) :
    (s.abort number).signals = s.signals.set number .aborted := by
  refine List.ext_getElem? fun i => ?_
  rw [abort_signals, List.getElem?_set]
  by_cases heq : i = number
  · subst heq
    rw [if_pos ⟨rfl, armed⟩, if_pos rfl, if_pos (List.getElem?_eq_some_iff.mp armed).1]
  · rw [if_neg fun h => heq h.1, if_neg (Ne.symm heq)]

/-- An abort uses up the signal of its run. -/
theorem count_signals_abort (armed : s.signals[number]? = some .armed) :
    (s.abort number).signals.count .armed + 1 = s.signals.count .armed := by
  obtain ⟨hlt, hget⟩ := List.getElem?_eq_some_iff.mp armed
  have hpos : 0 < s.signals.count .armed := List.count_pos_iff.mpr (List.mem_of_getElem? armed)
  have hother : (Signal.aborted == Signal.armed) = false := rfl
  rw [abort_signals_eq armed, List.count_set hlt, hget, hother, beq_self_eq_true, if_pos rfl,
    if_neg Bool.false_ne_true]
  omega

theorem length_jobsOf_le (s : State) (run : Nat) : (s.jobsOf run).length ≤ s.jobs.length := by
  unfold jobsOf
  rw [List.length_map]
  exact (List.length_filter_le _ _).trans (List.length_zipIdx).le

/-- An abort sets an alarm for each command at most. It has been counted as long as the run was not
aborted. -/
theorem abort_warned (commands : ∀ job ∈ s.jobs, ∃ line quiet, job.body = .command line quiet)
    (run : Nat) :
    ∃ kills, (s.abort run).jobs = s.jobs ∧ (s.abort run).timers = s.timers ++ kills ∧
      (∀ timer ∈ kills, timer.due = s.clock + 0) ∧
      kills.length + (s.abort run).signals.count .armed * s.jobs.length
        ≤ s.signals.count .armed * s.jobs.length := by
  have hsignal : s.signals[run]? = (s.runs[run]?).map (·.signal) := List.getElem?_map
  by_cases harmed : s.signals[run]? = some .armed
  · -- the children of the run are told, and it cannot be aborted again
    obtain ⟨r, hr, hrarmed⟩ := Option.map_eq_some_iff.mp (hsignal.symm.trans harmed)
    obtain ⟨kills, hwarned, hfew⟩ := foldl_abortJob_warned
      (s := s.modifyRun run fun r => { r with signal := .aborted }) commands
      ((s.jobsOf run).map (·.1))
    have habort : s.abort run = ((s.jobsOf run).map (·.1)).foldl abortJob
        (s.modifyRun run fun r => { r with signal := .aborted }) := by
      unfold State.abort
      rw [hr]
      exact if_pos hrarmed
    have hjobs := s.length_jobsOf_le run
    rw [List.length_map] at hfew
    rw [← count_signals_abort harmed, habort]
    refine ⟨kills, hwarned.jobs, hwarned.timers, hwarned.due, ?_⟩
    rw [Nat.succ_mul]
    omega
  · have habort : s.abort run = s := by
      unfold State.abort
      split
      · next r hr =>
        refine if_neg fun h => harmed ?_
        rw [hsignal, hr, Option.map_some, h]
      · rfl
    rw [habort]
    exact ⟨[], rfl, (List.append_nil _).symm, fun _ hmem => absurd hmem List.not_mem_nil,
      (Nat.zero_add _).le⟩

/-! ## Time passes when a timer fires -/

/-- The moment of a timer has come, and the timer is gone. -/
def struck (s : State) (timer : Timer) (place : Nat) : State :=
  { s with clock := s.clock.max timer.due, timers := s.timers.eraseIdx place }

theorem fire_eq (timer_eq : s.timers[place]? = some timer) :
    s.fire place = (s.struck timer place).sound timer.alarm := by
  unfold fire
  rw [timer_eq]
  rfl

theorem settleJob_time (s : State) (number : Nat) (ending : Ending) :
    SameTime s (s.settleJob number ending) := by
  unfold settleJob
  simp only [settle_eq_place]
  split
  · exact .refl s
  · split <;> exact ⟨rfl, rfl⟩

theorem childReports_time (s : State) (number : Nat) (report : ChildReport) :
    SameTime s (s.childReports number report) := by
  unfold childReports
  split
  · exact .refl s
  · split
    · exact settleJob_time s number _
    · exact .refl s

theorem abortJob_time (s : State) (number : Nat) : SameTime s (s.abortJob number) := by
  unfold abortJob
  simp only [settle_eq_place]
  split
  · exact .refl s
  · split
    · unfold kill
      dsimp only
      split <;> exact ⟨rfl, rfl⟩
    · split <;> exact ⟨rfl, rfl⟩
    · exact .refl s

theorem foldl_abortJob_time (numbers : List Nat) (s : State) :
    SameTime s (numbers.foldl abortJob s) := by
  induction numbers generalizing s with
  | nil => exact .refl s
  | cons number numbers ih => exact (abortJob_time s number).trans (ih _)

theorem abort_time (s : State) (run : Nat) : SameTime s (s.abort run) := by
  unfold State.abort
  split
  · split
    · -- marking the run changes no clock
      have hmarked : SameTime s (s.modifyRun run fun r => { r with signal := .aborted }) :=
        ⟨rfl, rfl⟩
      exact hmarked.trans (foldl_abortJob_time _ _)
    · exact .refl s
  · exact .refl s

/-- Time passes when a timer fires, and not by what its alarm does. -/
theorem fire_time (timer_eq : s.timers[place]? = some timer) :
    SameTime (s.struck timer place) (s.fire place) := by
  rw [fire_eq timer_eq]
  cases timer.alarm with
  | settle job ending => exact settleJob_time _ job ending
  | child job report => exact childReports_time _ job report
  | abort run => exact abort_time _ run

theorem fire_clock (timer_eq : s.timers[place]? = some timer) :
    (s.fire place).clock = s.clock.max timer.due := (fire_time timer_eq).clock

theorem fire_lags (s : State) (place : Nat) : (s.fire place).lags = s.lags := by
  cases timer_eq : s.timers[place]? with
  | none =>
    unfold fire
    rw [timer_eq]
  | some timer => exact (fire_time timer_eq).lags

/-! ## What an alarm does -/

/-- An alarm that goes off leaves the others as they are. -/
theorem Attended.drop (h : s.Attended) {more : List Timer}
    (timer_eq : s.timers[place]? = some timer)
    (unphased : t.jobs.map Job.unphased = s.jobs.map Job.unphased) (shell : t.shell = s.shell)
    (timers : t.timers = s.timers.eraseIdx place ++ more)
    (moments : ∀ timer ∈ more, timer.due.IsMoment) (lags : t.lags = s.lags)
    (awaited : ∀ i ∈ t.bodies, i ∈ s.bodies ∧ ∀ report, timer.alarm ≠ .child i report) :
    t.Attended where
  commands := h.commands_of_unphased unphased shell
  awaited := by
    intro i hi
    obtain ⟨hold, hothers⟩ := awaited i hi
    obtain ⟨other, hmem, report, halarm⟩ := h.awaited i hold
    -- its alarm is not the one that goes off, so it is still there
    obtain ⟨j, hj⟩ := List.getElem?_of_mem hmem
    have hne : j ≠ place := by
      rintro rfl
      obtain rfl := Option.some.inj (hj.symm.trans timer_eq)
      exact hothers report halarm
    refine ⟨other, ?_, report, halarm⟩
    rw [timers]
    exact List.mem_append_left _ (List.mem_eraseIdx_iff_getElem?.mpr ⟨j, hne, hj⟩)
  moments := by
    intro other hmem
    rw [timers] at hmem
    rcases List.mem_append.mp hmem with hold | hnew
    · exact h.moments other (List.mem_of_mem_eraseIdx hold)
    · exact moments other hnew
  unlagged := lags.trans h.unlagged

theorem length_eraseIdx_timers (timer_eq : s.timers[place]? = some timer) :
    (s.timers.eraseIdx place).length + 1 = s.timers.length := by
  have hlt : place < s.timers.length := (List.getElem?_eq_some_iff.mp timer_eq).1
  rw [List.length_eraseIdx_of_lt hlt]
  omega

theorem fire_shell (s : State) (place : Nat) : (s.fire place).shell = s.shell :=
  (receive_sends s (.fire place)).shell

/-- The alarm of a body, and of a child, ends that body. -/
theorem Attended.fire_settles (h : s.Attended) (timer_eq : s.timers[place]? = some timer)
    {ending : Ending} (fired : s.fire place = (s.struck timer place).settleJob number ending)
    (own : ∀ i report, timer.alarm = .child i report → i = number) (begun : Nat) :
    (s.fire place).Attended ∧ (s.fire place).forthcoming begun < s.forthcoming begun := by
  obtain ⟨hunphased, htimers, hruns, hbodies⟩ :=
    settleJob_keeps (s.struck timer place) number ending
  rw [← fired] at hunphased htimers hruns hbodies
  change (s.fire place).timers = s.timers.eraseIdx place at htimers
  refine ⟨h.drop timer_eq hunphased (s.fire_shell place) (htimers.trans (List.append_nil _).symm)
    (fun _ hmem => absurd hmem List.not_mem_nil) (fire_lags s place) fun i hi => ?_, ?_⟩
  · obtain ⟨hold, hne⟩ := hbodies i hi
    exact ⟨hold, fun report halarm => hne (own i report halarm)⟩
  · -- one alarm less, and nothing that could set others
    have hjobs : (s.fire place).jobs.length = s.jobs.length :=
      length_jobs_of_unphased (s := s) hunphased
    have hsignals : (s.fire place).signals = s.signals := congrArg (List.map Run.signal) hruns
    have hgone := length_eraseIdx_timers timer_eq
    unfold forthcoming
    rw [hjobs, hsignals, htimers]
    omega

/-- The alarm of an interrupt makes room for those of the signals that are sent to children. -/
theorem Attended.fire_aborts (h : s.Attended) (timer_eq : s.timers[place]? = some timer)
    (now : (s.clock.max timer.due).IsReading) {run : Nat} (alarm : timer.alarm = .abort run)
    (begun : Nat) :
    (s.fire place).Attended ∧ (s.fire place).forthcoming begun < s.forthcoming begun := by
  -- a signal may make children exit, and each exit is an alarm at the present moment
  obtain ⟨kills, hjobs, htimers, hdue, hcount⟩ :=
    abort_warned (s := s.struck timer place) h.commands_only run
  have hfired : s.fire place = (s.struck timer place).abort run := by
    rw [fire_eq timer_eq, alarm]
    rfl
  rw [← hfired] at hjobs htimers hcount
  refine ⟨h.drop timer_eq (congrArg (List.map Job.unphased) hjobs) (s.fire_shell place) htimers
    (fun other hmem => ?_) (fire_lags s place) fun i hi => ?_, ?_⟩
  · rw [hdue other hmem]
    exact now.isMoment_add (.inl ⟨0, Nat.zero_le _, rfl⟩)
  · rw [bodies_congr hjobs] at hi
    exact ⟨hi, fun report hchild => absurd (alarm.symm.trans hchild) (by simp)⟩
  · -- the armed signal counted for one alarm of each job, and is armed no more
    have hgone := length_eraseIdx_timers timer_eq
    unfold forthcoming
    rw [htimers, hjobs, List.length_append]
    change kills.length + (s.fire place).signals.count .armed * s.jobs.length
      ≤ s.signals.count .armed * s.jobs.length at hcount
    change (s.timers.eraseIdx place).length + kills.length + (s.jobs.length - begun)
      + (s.fire place).signals.count .armed * s.jobs.length < _
    omega

/-- **An alarm that goes off** ends what it was set for, or makes room for the alarms of an
abort. -/
theorem Attended.fire (h : s.Attended) (timer_eq : s.timers[place]? = some timer)
    (now : (s.clock.max timer.due).IsReading) (begun : Nat) :
    (s.fire place).Attended ∧ (s.fire place).forthcoming begun < s.forthcoming begun := by
  have hsound := fire_eq timer_eq
  cases halarm : timer.alarm with
  | settle number ending =>
    rw [halarm] at hsound
    refine h.fire_settles timer_eq hsound (fun i report hchild => ?_) begun
    exact absurd (halarm.symm.trans hchild) (by simp)
  | child number report =>
    rw [halarm] at hsound
    obtain ⟨ending, hreports⟩ :=
      childReports_keeps (s := s.struck timer place) number report h.commands_only
    refine h.fire_settles timer_eq (hsound.trans hreports) (fun i other hchild => ?_) begun
    exact (Alarm.child.inj (halarm.symm.trans hchild)).1.symm
  | abort run => exact h.fire_aborts timer_eq now halarm begun

/-! ## Until the alarms have run out -/

/-- What holds at every moment of two sequences of moves, one after the other. -/
theorem forall_prefix_append {P : List Move → Prop} {first second : List Move}
    (early : ∀ moment, moment <+: first → P moment)
    (late : ∀ moment, moment <+: second → P (first ++ moment)) :
    ∀ moment, moment <+: first ++ second → P moment := by
  intro moment hmoment
  rcases List.prefix_or_prefix_of_prefix hmoment (List.prefix_append first second) with
    hfirst | ⟨rest, rfl⟩
  · exact early moment hfirst
  · exact late rest ((List.prefix_append_right_inj first).mp hmoment)

/-- Nothing is submitted to a runner, and its clock shows readings. -/
structure Undisturbed (s : State) (moves : List Move) : Prop where
  alone : ∀ m ∈ moves, m.submits = false
  readings : ∀ moment, moment <+: moves → (s.after moment).Clocked Number.IsReading

theorem Undisturbed.append {first second : List Move} (h : s.Undisturbed first)
    (h' : (s.after first).Undisturbed second) : s.Undisturbed (first ++ second) where
  alone := by
    intro m hmem
    rcases List.mem_append.mp hmem with hfirst | hsecond
    · exact h.alone m hfirst
    · exact h'.alone m hsecond
  readings := by
    refine forall_prefix_append h.readings fun moment hmoment => ?_
    rw [after_append]
    exact h'.readings moment hmoment

theorem undisturbed_single {m : Move} (alone : m.submits = false)
    (before : s.Clocked Number.IsReading) (after : (s.move m).Clocked Number.IsReading) :
    s.Undisturbed [m] where
  alone := List.forall_mem_singleton.mpr alone
  readings := by
    intro moment hmoment
    rcases List.prefix_cons_iff.mp hmoment with rfl | ⟨rest, rfl, hrest⟩
    · exact before
    · rw [List.prefix_nil.mp hrest]
      exact after

theorem InLine.undisturbed_ticks (line : InLine capacity 0 s begun admitted)
    (unlagged : s.lags = []) (now : s.clock.IsReading) (n : Nat) :
    s.Undisturbed (List.replicate n .tick) where
  alone := by
    intro m hmem
    rw [List.eq_of_mem_replicate hmem]
    rfl
  readings := by
    intro moment hmoment
    have htime := line.time_ticks unlagged moment.length
    rw [(List.prefix_replicate_iff.mp hmoment).2]
    exact clocked_of_unlagged (htime.lags.trans unlagged) (htime.clock.symm ▸ now)

theorem Attended.ticks (h : s.Attended) (line : InLine capacity 0 s begun admitted)
    (now : s.clock.IsReading) (n : Nat) :
    ∃ begun' admitted', InLine capacity 0 (s.after (List.replicate n .tick)) begun' admitted' ∧
      (s.after (List.replicate n .tick)).Attended ∧
      (s.after (List.replicate n .tick)).forthcoming begun' ≤ s.forthcoming begun := by
  induction n generalizing s begun admitted with
  | zero => exact ⟨begun, admitted, line, h, Nat.le_refl _⟩
  | succ n ih =>
    obtain ⟨begun', admitted', hline, hattended, hle⟩ := h.tick line now
    obtain ⟨begun'', admitted'', hline', hattended', hle'⟩ :=
      ih hattended hline ((line.ticked.sameTime h.unlagged).clock.symm ▸ now)
    exact ⟨begun'', admitted'', hline', hattended', hle'.trans hle⟩

/-- The work that follows a timer takes no time. -/
theorem InLine.respond_fire_time (line : InLine capacity 0 s begun admitted)
    (unlagged : s.lags = []) (timer_eq : s.timers[place]? = some timer) :
    SameTime (s.struck timer place) (s.respond (.fire place)) := by
  obtain ⟨admitted', hfired⟩ := line.receive (.fire place)
  obtain ⟨n, hn⟩ := drainWithin_eq_after (s.fire place).effort (s.fire place)
  have hdrained : s.respond (.fire place) = (s.fire place).after (List.replicate n .tick) := hn
  rw [hdrained]
  exact (fire_time timer_eq).trans (InLine.time_ticks hfired ((fire_lags s place).trans unlagged) n)

theorem InLine.exists_respond (line : InLine capacity 0 s begun admitted) (stimulus : Stimulus) :
    ∃ begun' admitted', InLine capacity 0 (s.respond stimulus) begun' admitted' := by
  obtain ⟨n, hn⟩ := respond_eq_after s stimulus
  rw [hn]
  exact line.after _

/-- **The clock goes forward** while alarms go off. -/
theorem InLine.clock_le_fireWithin (line : InLine capacity 0 s begun admitted)
    (unlagged : s.lags = []) (hclock : s.clock ≠ .nan) (stop : State → Bool) (fuel : Nat) :
    Number.le s.clock (fireWithin (fun due => due != .nan) stop fuel s).clock = true := by
  induction fuel generalizing s begun admitted with
  | zero => exact Number.le_refl hclock
  | succ fuel ih =>
    unfold State.fireWithin
    split
    · exact Number.le_refl hclock
    · rcases nextTimer?_cases (fun due => due != .nan) s.timers with
        ⟨hnone, -⟩ | ⟨place, timer, hsome, htimer, hdue⟩
      · rw [hnone]
        exact Number.le_refl hclock
      · rw [hsome]
        -- the alarm that goes off moves the clock forward, and by induction so do the later ones
        have htime := line.respond_fire_time unlagged htimer
        have hfired : (s.respond (.fire place)).clock = s.clock.max timer.due := htime.clock
        obtain ⟨begun', admitted', hnext⟩ := line.exists_respond (.fire place)
        have hdue' : timer.due ≠ .nan := bne_iff_ne.mp hdue
        have hmax : s.clock.max timer.due ≠ .nan := by
          unfold Number.max
          rw [if_neg (by simp [hclock, hdue'])]
          split
          · exact hdue'
          · exact hclock
        have hlater := ih hnext (htime.lags.trans unlagged) (hfired ▸ hmax)
        rw [hfired] at hlater
        exact Number.le_trans (Number.le_max hclock hdue') hlater

theorem Attended.bodies_eq_nil (h : s.Attended) (timers : s.timers = []) : s.bodies = [] := by
  refine List.eq_nil_iff_forall_not_mem.mpr fun i hi => ?_
  obtain ⟨timer, hmem, -⟩ := h.awaited i hi
  rw [timers] at hmem
  exact absurd hmem List.not_mem_nil

/-- A runner that has been left to itself has come to a stop: no work is left, and what was waited
for has come, or no command is in progress any more. -/
structure Halted (s : State) (stop : State → Bool) (moves : List Move) : Prop where
  undisturbed : s.Undisturbed moves
  quiet : (s.after moves).queue = []
  halted : stop (s.after moves) = true ∨ (s.after moves).bodies = []

theorem Halted.now (line : InLine capacity 0 s begun admitted) (unlagged : s.lags = [])
    (quiet : s.queue = []) (now : s.clock.IsReading) (halted : stop s = true ∨ s.bodies = []) :
    s.Halted stop [] :=
  ⟨line.undisturbed_ticks unlagged now 0, quiet, halted⟩

/-- **One alarm** goes off, and the work that follows is done. -/
theorem Attended.respond_fire (h : s.Attended) (line : InLine capacity 0 s begun admitted)
    (now : s.clock.IsReading) (timer_eq : s.timers[place]? = some timer)
    (fired : (s.clock.max timer.due).IsReading) :
    ∃ moves begun' admitted', s.respond (.fire place) = s.after moves ∧ s.Undisturbed moves ∧
      InLine capacity 0 (s.after moves) begun' admitted' ∧ (s.after moves).Attended ∧
      (s.after moves).forthcoming begun' < s.forthcoming begun := by
  obtain ⟨n, hn⟩ := respond_eq_after s (.fire place)
  obtain ⟨admitted', hfired⟩ := line.receive (.fire place)
  obtain ⟨hattended, hless⟩ := h.fire timer_eq fired begun
  have hclock : (s.fire place).clock.IsReading := (fire_clock timer_eq).symm ▸ fired
  obtain ⟨begun', admitted'', hline, hattended', hle⟩ := hattended.ticks hfired hclock n
  have hfirst : s.Undisturbed [.arrive (.fire place)] :=
    undisturbed_single rfl (clocked_of_unlagged h.unlagged now)
      (clocked_of_unlagged hattended.unlagged hclock)
  have hthen := hfired.undisturbed_ticks hattended.unlagged hclock n
  exact ⟨_, begun', admitted'', hn, hfirst.append hthen, hline, hattended', hle.trans_lt hless⟩

/-- **The alarms run out**, and then a runner of commands that is left to itself has come to a
stop. -/
theorem Attended.fireWithin (h : s.Attended) (line : InLine capacity 0 s begun admitted)
    (quiet : s.queue = []) (now : s.clock.IsReading) {fuel : Nat}
    (enough : s.forthcoming begun ≤ fuel)
    (inRange : Timestamp.InRange (State.fireWithin (fun due => due != .nan) stop fuel s).clock) :
    ∃ moves, State.fireWithin (fun due => due != .nan) stop fuel s = s.after moves ∧
      s.Halted stop moves := by
  induction fuel generalizing s begun admitted with
  | zero =>
    -- no fuel is needed, so there is no alarm and nobody waits for one
    refine ⟨[], rfl, .now line h.unlagged quiet now (.inr (h.bodies_eq_nil ?_))⟩
    refine List.length_eq_zero_iff.mp ?_
    unfold forthcoming at enough
    omega
  | succ fuel ih =>
    unfold State.fireWithin at inRange ⊢
    split
    · next hstop => exact ⟨[], rfl, .now line h.unlagged quiet now (.inl hstop)⟩
    · next hgoing =>
      rw [if_neg hgoing] at inRange
      rcases nextTimer?_cases (fun due => due != .nan) s.timers with
        ⟨hnone, hall⟩ | ⟨place, timer, hsome, htimer, -⟩
      · -- every alarm is due at some time, so there is none
        rw [hnone]
        refine ⟨[], rfl, .now line h.unlagged quiet now (.inr (h.bodies_eq_nil ?_))⟩
        refine List.eq_nil_iff_forall_not_mem.mpr fun timer hmem => ?_
        exact (h.moments timer hmem).1 (bne_eq_false_iff_eq.mp (hall timer hmem))
      · rw [hsome] at inRange ⊢
        change ∃ moves, State.fireWithin _ stop fuel (s.respond (.fire place)) = _ ∧ _
        change Timestamp.InRange
          (State.fireWithin _ stop fuel (s.respond (.fire place))).clock at inRange
        have htime := line.respond_fire_time h.unlagged htimer
        have hclock : (s.respond (.fire place)).clock = s.clock.max timer.due := htime.clock
        -- the clock shows a reading, since it is neither before the first nor behind the last
        have hmoment := h.moments timer (List.mem_of_getElem? htimer)
        have hreading : (s.clock.max timer.due).IsReading := by
          have hmax := now.isMoment.max hmoment
          obtain ⟨begun', admitted', hnext⟩ := line.exists_respond (.fire place)
          have hforward := hnext.clock_le_fireWithin (htime.lags.trans h.unlagged)
            (hclock ▸ hmax.1) stop fuel
          rw [hclock] at hforward
          refine hmax.2 ⟨?_, Number.le_trans hforward inRange.2⟩
          exact Number.le_trans now.inRange.1 (Number.le_max now.ne_nan hmoment.1)
        obtain ⟨first, begun', admitted', hfirst, undisturbed, hline, hattended, hless⟩ :=
          h.respond_fire line now htimer hreading
        -- fewer alarms are still to come, so the rest of the fuel is enough
        obtain ⟨admitted'', hfired⟩ := line.receive (.fire place)
        have hquiet : (s.respond (.fire place)).queue = [] := hfired.queue_drain
        rw [hfirst] at inRange hquiet hclock ⊢
        obtain ⟨moves, hlast, halted⟩ :=
          ih hattended hline hquiet (hclock.symm ▸ hreading) (by omega) inRange
        refine ⟨first ++ moves, hlast.trans (after_append s first moves).symm,
          undisturbed.append halted.undisturbed, ?_, ?_⟩
        · rw [after_append]
          exact halted.quiet
        · rw [after_append]
          exact halted.halted

/-! ## From the submission on -/

/-- Without lags, a submission takes no time. -/
theorem submit_time {origin : State} (unlagged : origin.lags = []) (request : Request) :
    SameTime origin (origin.submit request) := by
  have htime := (submit_queued origin request).2.1
  rwa [looks_of_unlagged unlagged] at htime

/-- A runner without jobs is given commands, and may have alarms already. -/
theorem attended_receive {origin : State} (empty : origin.jobs = []) (unlagged : origin.lags = [])
    (moments : ∀ timer ∈ origin.timers, timer.due.IsMoment) {request : Request}
    (commands : ∀ task ∈ request.tasks, ∃ line quiet, task.body = .command line quiet ∧
      (origin.shell.child line).delay.IsWait) :
    (origin.receive (.settle request)).Attended where
  commands := by
    intro job hmem
    obtain ⟨i, hi⟩ := List.getElem?_of_mem hmem
    rw [(receive_sends origin (.settle request)).shell]
    rcases exists_job_before (receive_unphased origin (.settle request)) hi with
      ⟨old, hold, -⟩ | ⟨-, hnew⟩
    · rw [empty] at hold
      cases hold
    · obtain ⟨⟨task, place⟩, hentry, hsame⟩ := List.mem_map.mp (List.mem_of_getElem? hnew)
      have htask : task ∈ request.tasks :=
        List.mem_of_getElem? (List.mk_mem_zipIdx_iff_getElem?.mp hentry)
      have hbody : task.body = job.body := (congrArg Job.body hsame :)
      exact hbody ▸ commands task htask
  awaited := by
    intro i hi
    obtain ⟨job, hj, hrunning⟩ := mem_jobsIn.mp hi
    -- a job that has just been submitted is not running yet
    rcases (receive_phase origin (.settle request)).2 _ _ hj with ⟨old, hold, -⟩ | ⟨-, hphase⟩
    · rw [empty] at hold
      cases hold
    · rcases hphase with hphase | hphase <;> rw [hphase] at hrunning <;> cases hrunning
  moments := by
    have htimers : (origin.receive (.settle request)).timers = origin.timers :=
      (submit_queued origin request).1
    rw [htimers]
    exact moments
  unlagged := (submit_time unlagged request).lags.trans unlagged

theorem signals_ticks (s : State) (n : Nat) :
    (s.after (List.replicate n .tick)).signals = s.signals := by
  induction n generalizing s with
  | zero => rfl
  | succ n ih =>
    obtain ⟨asked, hasks, -⟩ := tick_asks s
    exact (ih s.tick).trans hasks.signals

/-- **A runner of commands comes to a stop.** It is left to itself once the commands have been
submitted, and the clock stays in the range of dates: then it makes moves none of which submits
anything, and at the end no work is left, and what was waited for has come or no command is in
progress any more. -/
theorem halted_of_runUntil {origin : State} (regular : origin.Regular capacity)
    (empty : origin.jobs = []) (unopened : origin.runs = []) (unlagged : origin.lags = [])
    (now : origin.clock.IsReading)
    (moments : ∀ timer ∈ origin.timers, timer.due.IsMoment) {request : Request}
    (commands : ∀ task ∈ request.tasks, ∃ line quiet, task.body = .command line quiet ∧
      (origin.shell.child line).delay.IsWait) (stop : State → Bool)
    (inRange : Timestamp.InRange ((origin.respond (.settle request)).runUntil stop).clock) :
    let first := origin.receive (.settle request)
    ∃ later, (origin.respond (.settle request)).runUntil stop = first.after later ∧
      first.Halted stop later := by
  intro first
  have hattended : first.Attended := attended_receive empty unlagged moments commands
  obtain ⟨begun, admitted, hline⟩ := (regular.move (.arrive (.settle request))).inLine
  change InLine capacity 0 first begun admitted at hline
  have hclock : first.clock.IsReading := (submit_time unlagged request).clock.symm ▸ now
  obtain ⟨n, hn⟩ := drainWithin_eq_after first.effort first
  have hrespond : origin.respond (.settle request) = first.after (List.replicate n .tick) := hn
  obtain ⟨begun', admitted', hline', hattended', -⟩ := hattended.ticks hline hclock n
  have hquiet : (first.after (List.replicate n .tick)).queue = [] := hn ▸ hline.queue_drain
  -- there is one run, so each command is sent one signal at most
  have hone : (first.after (List.replicate n .tick)).signals.count .armed ≤ 1 := by
    have hruns : first.runs = origin.runs ++ [origin.runFor request] := submit_runs origin request
    rw [signals_ticks]
    refine List.count_le_length.trans ?_
    unfold signals
    rw [hruns, unopened]
    exact Nat.le_refl 1
  -- the fuel is counted from the jobs and the alarms that there are
  have henough : (first.after (List.replicate n .tick)).forthcoming begun'
      ≤ (first.after (List.replicate n .tick)).alarms := by
    have hkills := Nat.mul_le_mul_right (first.after (List.replicate n .tick)).jobs.length hone
    unfold forthcoming alarms
    omega
  rw [hrespond] at inRange ⊢
  obtain ⟨moves, hlast, halted⟩ :=
    hattended'.fireWithin hline' hquiet
      ((hline.time_ticks hattended.unlagged n).clock.symm ▸ hclock) henough inRange
  refine ⟨List.replicate n .tick ++ moves, hlast.trans (after_append first _ moves).symm,
    (hline.undisturbed_ticks hattended.unlagged hclock n).append halted.undisturbed, ?_, ?_⟩
  · rw [after_append]
    exact halted.quiet
  · rw [after_append]
    exact halted.halted

end State

end BoundedJobs
