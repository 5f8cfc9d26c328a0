import BoundedJobs.Proofs.Representable
import BoundedJobs.Proofs.Runner.Timekeeping

/-!
# What a report takes from the clock

The clock may go back and forth, as long as it shows numbers of one kind whenever it is looked at.
Then every moment in a report is of this kind, and every time in it is the difference of two such
numbers. The kind may be that of whole milliseconds in the range of dates.

* `Number.IsReading`, `Number.IsSpan` — readings, and differences of two of them. A difference is a
  whole number with few digits (`IsSpan.exists_whole`);
* `Crew.Shows` — what holds at every moment of the times that a run has noted, for any kind of
  numbers (`Crew.shows_of_regular`);
* `Crew.exists_resolved` — a report is made at some moment, and tells of that moment;
* `Crew.maxParallel_of_answer` — a report names the number of slots, whatever the clock shows.
-/

namespace BoundedJobs

namespace Number

variable {n : Number}

/-- **A reading of a clock**: a whole number of milliseconds in the range of dates. -/
def IsReading (n : Number) : Prop := ∃ i : Int, i.natAbs ≤ Timestamp.bound ∧ n = ofInt i

theorem whole_of_natAbs_le_bound {i : Int} (h : i.natAbs ≤ Timestamp.bound) : Whole i :=
  Whole.of_le (h.trans (by decide))

theorem IsReading.inRange (h : n.IsReading) : Timestamp.InRange n := by
  obtain ⟨i, hi, rfl⟩ := h
  have hi' := whole_of_natAbs_le_bound hi
  have hlow : Whole (-Timestamp.bound) := whole_of_natAbs_le_bound (by simp)
  have hhigh : Whole Timestamp.bound := whole_of_natAbs_le_bound (by simp)
  exact ⟨hlow.le hi' (by omega), hi'.le hhigh (by omega)⟩

/-- The difference of two readings. -/
def IsSpan (n : Number) : Prop :=
  ∃ late early : Number, late.IsReading ∧ early.IsReading ∧ n = late - early

/-- A natural number up to twice the range of dates is rounded to a whole number with few digits. -/
theorem exists_whole_ofNat {k : Nat} (h : k ≤ 2 * Timestamp.bound) :
    ∃ m : Nat, m < 10 ^ 17 ∧ Whole m ∧ ofNat k = finite (m : Int) := by
  rcases Nat.lt_or_ge exactBound k with hlt | hle
  · have hfew : rounded k ≤ 2 * Timestamp.bound :=
      (rounded_mono (le_log2 hlt) h).trans_eq (by decide +kernel)
    have hsmall : rounded k < Nat.pow 2 1024 := by
      have hrange : 64 ≤ 1024 := by decide
      generalize 1024 = range at hrange ⊢
      calc rounded k ≤ 2 * Timestamp.bound := hfew
        _ < 2 ^ 64 := by decide
        _ ≤ 2 ^ range := Nat.pow_le_pow_right (by decide) hrange
    have hk : ofNat k = finite ((rounded k : Nat) : Int) := by
      rw [ofNat_of_lt hlt, if_neg (Nat.not_le.mpr hsmall)]
    exact ⟨rounded k, hfew.trans_lt (by decide), Whole.of_nearest hk, hk⟩
  · have hk : ofNat k = finite (k : Int) := ofNat_of_le hle
    exact ⟨k, hle.trans_lt (by decide), Whole.of_nearest hk, hk⟩

/-- **A difference of two readings** is a whole number with few digits. -/
theorem IsSpan.exists_whole (h : n.IsSpan) :
    ∃ i : Int, i.natAbs < 10 ^ 17 ∧ Whole i ∧ n = finite i := by
  obtain ⟨late, early, ⟨i, hi, rfl⟩, ⟨j, hj, rfl⟩, rfl⟩ := h
  rw [(whole_of_natAbs_le_bound hi).sub (whole_of_natAbs_le_bound hj)]
  obtain ⟨m, hfew, hwhole, hm⟩ := exists_whole_ofNat (k := (i - j).natAbs) (by omega)
  rcases Int.natAbs_eq (i - j) with heq | heq
  · exact ⟨m, hfew, hwhole, by rw [heq]; exact hm⟩
  · refine ⟨-m, by rwa [Int.natAbs_neg], hwhole.neg, ?_⟩
    rw [heq]
    change nearest ((-((i - j).natAbs : Int) : Int) : Rat) = _
    rw [Rat.intCast_neg, nearest_neg, show nearest (((i - j).natAbs : Int) : Rat) = _ from hm]
    change finite (-((m : Int) : Rat)) = _
    rw [← Rat.intCast_neg]

end Number

/-- The difference of two numbers of a kind. -/
def Number.IsSpanOf (kind : Number → Prop) (n : Number) : Prop :=
  ∃ late early : Number, kind late ∧ kind early ∧ n = late - early

section Kind

variable {kind : Number → Prop}

/-- The times that a phase knows of come from numbers of a kind. -/
def Phase.Shows (kind : Number → Prop) (phase : Phase) : Prop :=
  match phase with
  | waiting | granted => True
  | running times | settled times _ => times.waited.IsSpanOf kind ∧ kind times.started
  | leaving result | finished result => ∀ outcome, result = .outcome outcome →
      outcome.waitedMs.IsSpanOf kind ∧ outcome.durationMs.IsSpanOf kind

theorem Phase.Hears.shows {old new : Phase} (h : old.Hears new) (shows : old.Shows kind) :
    new.Shows kind := by
  rcases h with rfl | ⟨times, ending, rfl, rfl | rfl⟩
  · exact shows
  · exact shows
  · exact fun outcome houtcome => absurd houtcome (Result.ofCall_ne_outcome _ _ _)

/-- The moments in a report are readings, and its duration is their difference. -/
structure Report.Shows (report : Report) : Prop where
  startedAt : report.startedAt.IsReading
  finishedAt : report.finishedAt.IsReading
  durationMs : report.durationMs = report.finishedAt - report.startedAt

namespace State

variable {s t : State} {number : Nat} {job : Job}

theorem Noted.shows {times : Times} {ending : Ending} {result : Result}
    (h : Noted s number job times ending t result) (now : kind s.look.clock)
    (waited : times.waited.IsSpanOf kind) (started : kind times.started) :
    (Phase.leaving result).Shows kind := by
  intro outcome houtcome
  cases h with
  | call => exact absurd houtcome (Result.ofCall_ne_outcome _ _ _)
  | outcome =>
    obtain rfl := Result.outcome.inj houtcome
    exact ⟨waited, s.look.clock, times.started, now, started, rfl⟩
  | crashed => exact absurd houtcome (by simp)

theorem Opening.shows {phase : Phase} (h : Opening s number job t phase) (task : job.run? ≠ none)
    (clocked : s.Clocked kind) (submitted : kind job.submitted) : phase.Shows kind := by
  have hwaited : (s.timesOf job).waited.IsSpanOf kind :=
    ⟨s.look.clock, job.submitted, clocked.look.now, submitted, rfl⟩
  have hstarted : kind (s.timesOf job).started := (clocked.looked job).now
  cases h with
  | barred => exact fun outcome houtcome => absurd houtcome (by simp)
  | running => exact ⟨hwaited, hstarted⟩
  | settled =>
    rw [ended_of_run? task]
    exact ⟨hwaited, hstarted⟩
  | thrown _ _ time noted =>
    exact noted.shows ((clocked.looked job).congr time).look.now hwaited hstarted

end State

namespace Crew

open State

variable {c : Crew} {request : Request} {s t origin : State} {number : Nat} {job : Job}
  {opened : Number} {capacity begun admitted : Nat}

/-- What holds of the times that a run has noted: it was opened at a moment, and all the other
moments are numbers of a kind. -/
structure Shows (c : Crew) (kind : Number → Prop) (opened : Number) (s : State) : Prop where
  run : ∃ run, s.runs[c.run]? = some run ∧ run.startedAt = opened
  jobs : c.Each s fun _ job => kind job.submitted ∧ job.phase.Shows kind
  report : ∀ report, c.answer? s = some (.ok report) → report.startedAt = opened ∧
    kind report.finishedAt ∧ report.durationMs = report.finishedAt - report.startedAt

theorem answer?_receive (carriesOut : c.CarriesOut request s) (stimulus : Stimulus) :
    c.answer? (s.receive stimulus) = c.answer? s := by
  have hrun := congrArg (·[c.run]?) (receive_unsigned s stimulus)
  rw [List.getElem?_append_left (by rw [List.length_map]; exact carriesOut.lt_length),
    List.getElem?_map, List.getElem?_map] at hrun
  exact answer?_of_unsigned hrun

theorem Shows.receive (h : c.Shows kind opened s) (carriesOut : c.CarriesOut request s)
    (stimulus : Stimulus) : c.Shows kind opened (s.receive stimulus) where
  run := startedAt_of_fixed (receive_fixed s stimulus) h.run
  jobs := h.jobs.receive stimulus fun _ _ _ ⟨hsubmitted, hshows⟩ hhears hsame =>
    ⟨(congrArg Job.submitted hsame :) ▸ hsubmitted, hhears.shows hshows⟩
  report := by
    intro report hanswer
    rw [answer?_receive carriesOut] at hanswer
    exact h.report report hanswer

/-- A tick keeps what is known of the times, if the clock shows numbers of the kind. -/
theorem Shows.ticked (h : c.Shows kind opened s) (carriesOut : c.CarriesOut request s)
    (line : InLine capacity 0 s begun admitted) (ticked : Ticked s t) (clocked : s.Clocked kind) :
    c.Shows kind opened t where
  run := startedAt_of_fixed (ticked.fixed.trans (List.append_nil _).symm) h.run
  jobs := by
    have hpopped : s.popped.Clocked kind := clocked.congr ⟨rfl, rfl⟩
    refine h.jobs.ticked line ticked ⟨fun i hi job hj => carriesOut.isTask hj hi, ?_, ?_, ?_, ?_⟩
    · rintro i job ⟨hsubmitted, -⟩ -
      exact ⟨hsubmitted, trivial⟩
    · -- the start of a job takes its times from the clock
      rintro i hi job u phase - hj ⟨hsubmitted, -⟩ - opening
      exact ⟨hsubmitted, opening.shows (carriesOut.isTask hj hi) hpopped hsubmitted⟩
    · -- its end takes the time in between
      rintro i - job times ending u result - ⟨hsubmitted, hshows⟩ settled noted
      rw [settled] at hshows
      exact ⟨hsubmitted, noted.shows hpopped.look.now hshows.1 hshows.2⟩
    · rintro i job result ⟨hsubmitted, hshows⟩ leaving
      rw [leaving] at hshows
      exact ⟨hsubmitted, hshows⟩
  report := by
    intro report hanswer
    -- the answer was there, or this tick has made it from the present reading
    rcases resolved_of_ticked ticked hanswer with hold | ⟨-, run, hrun, rfl⟩
    · exact h.report report hold
    · obtain ⟨run', hrun', hstarted⟩ := h.run
      obtain rfl := Option.some.inj (hrun.symm.trans hrun')
      exact ⟨hstarted, clocked.look.now, rfl⟩

/-- A run that has just been submitted has no answer. -/
theorem answer?_receive_settle (origin : State) (request : Request) :
    (ofRequest origin request).answer? (origin.receive (.settle request)) = none := by
  change ((origin.submit request).runs[origin.runs.length]?).bind (·.answer) = none
  rw [submit_runs, List.getElem?_append_right (Nat.le_refl _), Nat.sub_self]
  rfl

theorem shows_receive (enrolled : s.Enrolled) (request : Request) (clocked : s.Clocked kind) :
    (ofRequest s request).Shows kind s.look.clock (s.receive (.settle request)) where
  run := by
    refine ⟨s.runFor request, ?_, rfl⟩
    change (s.submit request).runs[s.runs.length]? = _
    rw [submit_runs, List.getElem?_append_right (Nat.le_refl _), Nat.sub_self]
    rfl
  jobs := by
    refine each_receive enrolled fun i job hmem hphase => ⟨?_, ?_⟩
    · -- a job is submitted at one of the looks of the submission
      obtain ⟨⟨task, place⟩, -, hsame⟩ := List.mem_map.mp hmem
      exact (congrArg Job.submitted hsame :) ▸ (clocked.looks (place + 2)).now
    · rcases hphase with hphase | hphase <;> rw [hphase] <;> trivial
  report := fun report hanswer =>
    absurd (hanswer.symm.trans (answer?_receive_settle s request)) (by simp)

/-- **The times of a run come from what the clock shows**, at every moment after its submission, if
that has been numbers of a kind so far. -/
theorem shows_of_regular (kind : Number → Prop) (regular : origin.Regular capacity)
    (request : Request) (later : List Move) :
    let first := origin.receive (.settle request)
    origin.Clocked kind → (∀ moment, moment <+: later → (first.after moment).Clocked kind) →
      (ofRequest origin request).Shows kind origin.look.clock (first.after later) := by
  intro first opened readings
  induction later using List.reverseRecOn with
  | nil => exact shows_receive regular.enrolled request opened
  | append_singleton later m ih =>
    have hshows := ih fun moment hmoment =>
      readings moment (hmoment.trans (List.prefix_append _ _))
    have hcarries := (tracked_of_regular regular request later).1
    rw [after_concat]
    cases m with
    | arrive stimulus => exact hshows.receive hcarries stimulus
    | tick =>
      obtain ⟨begun, admitted, hline⟩ :=
        (regular.after (.arrive (.settle request) :: later)).inLine
      exact hshows.ticked hcarries hline hline.ticked (readings later (List.prefix_append _ _))

/-- The outcomes in a report show differences of numbers of the kind. -/
theorem Shows.outcome (h : c.Shows kind opened s) {report : Report} (reported : c.Reported s report)
    {outcome : Outcome} (mem : outcome ∈ report.tasks) :
    outcome.waitedMs.IsSpanOf kind ∧ outcome.durationMs.IsSpanOf kind := by
  obtain ⟨place, hplace⟩ := List.getElem?_of_mem mem
  have hlt : place < c.size := by
    rw [← reported.length]
    exact (List.getElem?_eq_some_iff.mp hplace).1
  obtain ⟨other, hother, hresult⟩ := reported.task place hlt
  obtain rfl := Option.some.inj (hplace.symm.trans hother)
  obtain ⟨job, hj, -, hshows⟩ := h.jobs _ (first_add_mem hlt)
  unfold result? at hresult
  rw [exit?_of_job hj] at hresult
  -- a job with a result is leaving or finished
  cases hp : job.phase with
  | leaving result | finished result =>
    rw [hp] at hresult hshows
    exact hshows outcome (Option.some.inj hresult)
  | waiting | granted | running | settled =>
    rw [hp] at hresult
    exact absurd hresult (by simp [Phase.exit?])

/-- **A report is made by a piece of work**, of the state before it. -/
theorem resolved_of_move (regular : origin.Regular capacity) (request : Request)
    (later : List Move) (m : Move) {report : Report} :
    let first := origin.receive (.settle request)
    let c := ofRequest origin request
    c.answer? (first.after (later ++ [m])) = some (.ok report) →
      c.answer? (first.after later) = some (.ok report) ∨
        m = .tick ∧ ∃ run, report = (first.after later).look.reportOf c.run run := by
  intro first c hanswer
  rw [after_concat] at hanswer
  cases m with
  | arrive stimulus =>
    left
    rw [← hanswer]
    exact (answer?_receive (tracked_of_regular regular request later).1 stimulus).symm
  | tick =>
    obtain ⟨begun, admitted, hline⟩ :=
      (regular.after (.arrive (.settle request) :: later)).inLine
    exact (resolved_of_ticked hline.ticked hanswer).imp_right
      fun ⟨_, run, _, hreport⟩ => ⟨rfl, run, hreport⟩

/-- **A report is made at some moment**, and tells of that moment. -/
theorem exists_resolved (regular : origin.Regular capacity) (request : Request)
    (later : List Move) {report : Report} :
    let first := origin.receive (.settle request)
    let c := ofRequest origin request
    c.answer? (first.after later) = some (.ok report) →
      ∃ before run, before ++ [.tick] <+: later ∧
        c.answer? (first.after (before ++ [.tick])) = some (.ok report) ∧
        report = (first.after before).look.reportOf c.run run := by
  intro first c
  -- on the moves: the report is there before the last one, or is made by it
  induction later using List.reverseRecOn with
  | nil => exact fun hanswer => absurd (hanswer.symm.trans (answer?_receive_settle _ _)) (by simp)
  | append_singleton later m ih =>
    intro hanswer
    rcases resolved_of_move regular request later m hanswer with hold | ⟨rfl, run, rfl⟩
    · obtain ⟨before, run, hprefix, hresolved⟩ := ih hold
      exact ⟨before, run, hprefix.trans (List.prefix_append later [m]), hresolved⟩
    · exact ⟨later, run, List.prefix_rfl, hanswer, rfl⟩

/-- **A report names the number of slots.** -/
theorem maxParallel_of_answer (regular : origin.Regular capacity) (request : Request)
    (later : List Move) :
    let first := origin.receive (.settle request)
    ∀ report, (ofRequest origin request).answer? (first.after later) = some (.ok report) →
      report.maxParallel = .ofNat capacity := by
  intro first report hanswer
  obtain ⟨before, run, -, -, rfl⟩ := exists_resolved regular request later hanswer
  obtain ⟨begun, admitted, hline⟩ :=
    (regular.after (.arrive (.settle request) :: before)).inLine
  change Number.ofNat (first.after before).look.slots.capacity = _
  rw [look_slots]
  exact congrArg Number.ofNat hline.capacity_eq

end Crew

end Kind

end BoundedJobs
