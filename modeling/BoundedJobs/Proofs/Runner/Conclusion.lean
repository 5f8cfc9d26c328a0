import BoundedJobs.Proofs.Runner.Chronicle
import BoundedJobs.Proofs.Runner.Dated
import BoundedJobs.Proofs.Runner.Slots
import Mathlib.Data.List.Infix

/-!
# No task is left out

While the clock shows a date no task crashes, so every task of a run comes to an outcome, however it
ends and whenever the run is aborted, and the run is answered when the last of them has given its
slot back and not before. The argument has three parts:

* nothing but a crash could answer a run early, and there is none (`clean_of_regular`): a run with
  an answer has a report that holds the outcomes of all its tasks (`Concludes.answered`);
* nothing can keep a run that is over from its answer: the last of its tasks to give its slot back
  puts the conclusion of the run into the queue (`due_of_released`), where it stays until it is
  drawn (`conclude_stays`, `Concludes.due`);
* what has been told of a task whose slot is given back is the call of its start hook, the entry of
  its body and the call of its end hook, each once (`Crew.Chronicled`).

`carriedOut_once` puts them together.
-/

namespace BoundedJobs

/-- What a run makes of its report: the report itself, or one error for all its failures if there
are some and the run is strict. -/
def Report.verdict (report : Report) (strict : Bool) : Except Fault Report :=
  if strict && !report.failures.isEmpty then
    .error { kind := .parallel report.failures, message := "\n".intercalate report.failures }
  else .ok report

namespace State

open Relation

variable {s t origin : State} {number : Nat} {job : Job} {capacity begun admitted : Nat}

/-! ## The queue -/

/-- What is in the queue stays there when a stimulus arrives. -/
theorem receive_queue (s : State) (stimulus : Stimulus) :
    ∃ more, (s.receive stimulus).queue = s.queue ++ more := by
  refine receive_induction (P := fun t => ∃ more, t.queue = s.queue ++ more) ?_ ?_ stimulus
  · rintro t u step ⟨more, ht⟩
    cases step with
    | nudged nudge =>
      cases nudge with
      | aside ha => exact ⟨more, ha.queue.trans ht⟩
      | @settled number job times ending =>
        -- the end of the body is next, or the return of the slot
        refine ⟨more ++ ((job.ended times ending.effective).work? number).toList, ?_⟩
        rw [← List.append_assoc, ← ht]
        rfl
    | opened => exact ⟨more, ht⟩
    | @submitted job =>
      unfold submitJob
      simp only
      split
      · refine ⟨more ++ [.start t.jobs.length], ?_⟩
        rw [← List.append_assoc, ← ht]
        rfl
      · exact ⟨more, ht⟩
    | concluding =>
      refine ⟨more ++ [.conclude s.runs.length], ?_⟩
      rw [← List.append_assoc, ← ht]
      rfl
  · exact ⟨[], (List.append_nil _).symm⟩

theorem passOn_queue (s : State) : ∃ more, s.passOn.queue = s.queue ++ more := by
  cases hw : s.slots.waiters with
  | nil =>
    rw [passOn_of_idle hw]
    exact ⟨[], (List.append_nil _).symm⟩
  | cons next others =>
    rw [passOn_of_waiting hw]
    exact ⟨_, rfl⟩

theorem reportBack_queue (s : State) (job : Job) (result : Result) :
    (s.reportBack job result).queue = s.queue ++ (s.blamed job result).closing job := by
  rw [reportBack_eq, ← (blamed_sameLine s job result).queue]

/-- A tick takes the first piece of work from the queue, and the others stay. -/
theorem Ticked.queue (h : Ticked s t) : ∃ more, t.queue = s.popped.queue ++ more := by
  cases h with
  | quiet queue =>
    refine ⟨[], ?_⟩
    unfold popped
    rw [queue]
    rfl
  | @started number job u phase _ _ _ opening =>
    exact ⟨_, congrArg (· ++ _) opening.sameLine.queue⟩
  | @bounced number job u value _ _ _ bounced =>
    -- the slot that is given back may start the next one in line
    obtain ⟨more, hmore⟩ := passOn_queue
      (u.place number (.finished (.ofCall (s.popped.timesOf job) (.thrown value))))
    rw [place_finished] at hmore ⊢
    exact ⟨more, hmore.trans (congrArg (· ++ more) bounced.sameLine.queue)⟩
  | finished _ _ _ noted => exact ⟨_, congrArg (· ++ _) noted.sameLine.queue⟩
  | @released number job result =>
    obtain ⟨more, hmore⟩ := passOn_queue (s.popped.place number (.finished result))
    rw [reportBack_queue, hmore]
    exact ⟨_, (List.append_assoc _ _ _).trans (List.append_assoc _ _ _)⟩
  | concluded =>
    rw [(conclude_sameLine _ _).queue]
    exact ⟨[], (List.append_nil _).symm⟩

theorem mem_unsettled {i : Nat} :
    i ∈ s.unsettled ↔ ∃ job, s.jobs[i]? = some job ∧ job.phase.isFinished = false := by
  unfold unsettled
  rw [mem_jobsIn]
  refine exists_congr fun job => and_congr_right fun _ => ?_
  exact Iff.of_eq (Bool.not_eq_true' _)

theorem exit?_unborn {i : Nat} (h : s.jobs.length ≤ i) : s.exit? i = none := by
  unfold exit?
  rw [List.getElem?_eq_none h]
  rfl

theorem receive_exit?_unborn {stimulus : Stimulus} {i : Nat} (h : s.jobs.length ≤ i) :
    (s.receive stimulus).exit? i = s.exit? i :=
  receive_exit? s stimulus fun _ hj =>
    absurd (List.getElem?_eq_some_iff.mp hj).1 (Nat.not_lt.mpr h)

/-- A job whose slot is given back in a tick is the one that the tick is about. -/
theorem Ticked.released_of_exit? (h : Ticked s t) (line : InLine capacity 0 s begun admitted)
    {result : Result} (before : s.exit? number = some (result, false))
    (gone : t.exit? number = some (result, true)) :
    ∃ job, s.jobs[number]? = some job ∧
      t = ((s.popped.place number (.finished result)).passOn).reportBack job result := by
  -- a job that moves on to a phase in which it still holds its slot is not the one
  have hkept : ∀ {u : State} {other : Nat} {old : Job} {phase : Phase}, u.jobs = s.jobs →
      s.jobs[other]? = some old → (∀ result, phase.exit? ≠ some (result, true)) →
      t = u.place other phase → False := by
    intro u other old phase hjobs hother hphase ht
    rw [ht, exit?_place (s := u) (by rw [hjobs]; exact hother), exit?_congr hjobs, before] at gone
    split at gone
    · exact hphase _ gone
    · exact absurd gone (by simp)
  cases h with
  | quiet => exact absurd (before.symm.trans gone) (by simp)
  | started _ job_eq _ opening =>
    refine (hkept opening.sameLine.jobs job_eq (fun result' => ?_) rfl).elim
    cases opening with
    | settled => unfold Job.ended; split <;> simp [Phase.exit?]
    | barred | running | thrown => simp [Phase.exit?]
  | @bounced other job u value queue job_eq granted bounced =>
    -- a call that is over at once held its slot to the end without a result
    rw [(line.gaveUp queue job_eq granted bounced _).exit?_passOn,
      exit?_place (s := u) (by rw [bounced.beside.jobs]; exact job_eq),
      exit?_congr bounced.beside.jobs] at gone
    split at gone
    · next heq =>
      subst heq
      rw [exit?_of_job job_eq, granted] at before
      exact absurd before (by simp [Phase.exit?])
    · exact absurd (before.symm.trans gone) (by simp)
  | finished _ job_eq _ noted =>
    exact (hkept noted.sameLine.jobs job_eq (fun result' => by simp [Phase.exit?]) rfl).elim
  | @released other job result' queue job_eq leaving =>
    rw [exit?_congr (reportBack_keeps _ _ _).1, (line.leave queue job_eq leaving).exit?_passOn,
      exit?_place (s := s.popped) job_eq] at gone
    split at gone
    · next heq =>
      subst heq
      obtain rfl := (Prod.mk.inj (Option.some.inj gone)).1
      exact ⟨job, job_eq, rfl⟩
    · exact absurd (before.symm.trans gone) (by simp)
  | @concluded other =>
    rw [exit?_congr (conclude_sameLine s.popped other).jobs] at gone
    exact absurd (before.symm.trans gone) (by simp)

end State

namespace Crew

open State

variable {c : Crew} {request : Request} {s t first : State} {moves : List Move} {number : Nat}
  {job : Job} {capacity begun admitted : Nat}

/-! ## No crash -/

/-- **No task of a run crashes** while the clock shows a date. -/
theorem clean_of_regular {origin : State} (regular : origin.Regular capacity) (request : Request)
    (later : List Move) :
    let first := origin.receive (.settle request)
    (∀ moment, moment <+: later → (first.after moment).Dated) →
      (ofRequest origin request).Clean (first.after later) := by
  intro first dated
  induction later using List.reverseRecOn with
  | nil =>
    -- the jobs of the run are new
    intro i hi fault hcrashed
    have hunborn : origin.jobs.length ≤ i := (mem_jobs.mp hi).1
    have hnone : (origin.receive (.settle request)).exit? i = none := by
      rw [receive_exit?_unborn hunborn]
      exact exit?_unborn hunborn
    exact absurd ((result?_eq_none hnone).symm.trans hcrashed) (by simp)
  | append_singleton later m ih =>
    have hclean := ih fun moment hmoment => dated moment (hmoment.trans (List.prefix_append _ _))
    rw [after_concat]
    intro i hi fault hcrashed
    obtain ⟨exit, hexit, hfst⟩ := Option.map_eq_some_iff.mp hcrashed
    obtain ⟨result, gone⟩ := exit
    obtain rfl : result = .crashed fault := hfst
    have hearlier : ∃ earlier, (first.after later).exit? i = some (.crashed fault, earlier) := by
      cases m with
      | arrive stimulus =>
        have hcarries := (tracked_of_regular regular request later).1
        exact ⟨gone,
          (receive_exit? _ stimulus fun job hj => hcarries.isTask hj hi).symm.trans hexit⟩
      | tick =>
        obtain ⟨begun, admitted, hline⟩ :=
          (regular.after (.arrive (.settle request) :: later)).inLine
        exact hline.unharmed_tick (dated later (List.prefix_append _ _)) i fault gone hexit
    obtain ⟨earlier, hbefore⟩ := hearlier
    exact hclean i hi fault (result?_eq hbefore)

theorem clean_after (positive : 0 < capacity) (clock : Number) (level : Log.Level) (shell : Shell)
    (before : List Move) (request : Request) (later : List Move) :
    let origin := (fresh positive clock level shell).after before
    let first := origin.receive (.settle request)
    (∀ moment, moment <+: later → (first.after moment).Dated) →
      (ofRequest origin request).Clean (first.after later) :=
  clean_of_regular (regular_after positive clock level shell before) request later

/-! ## The conclusion of a run is due once the run is over -/

theorem CarriesOut.over_iff (h : c.CarriesOut request s) :
    c.Over s ↔ ∀ i ∈ c.jobs, i ∉ s.unsettled := by
  have hfinished : ∀ phase : Phase, (∃ result, phase.exit? = some (result, true)) ↔
      phase.isFinished = true := by
    intro phase
    cases phase <;> simp [Phase.exit?, Phase.isFinished]
  refine forall_congr' fun i => forall_congr' fun hi => ?_
  obtain ⟨job, hj⟩ := h.exists_job hi
  rw [exit?_of_job hj, hfinished, mem_unsettled]
  constructor
  · rintro hdone ⟨other, hother, hphase⟩
    obtain rfl := Option.some.inj (hj.symm.trans hother)
    exact absurd (hdone.symm.trans hphase) (by simp)
  · intro hnone
    by_contra hphase
    exact hnone ⟨job, hj, (Bool.not_eq_true _).mp hphase⟩

/-- A run that is over and has no answer is complete. -/
theorem CarriesOut.isComplete_of_over (h : c.CarriesOut request s) (hover : c.Over s)
    (unanswered : c.answer? s = none) : s.isComplete c.run = true := by
  obtain ⟨run, hrun, -⟩ := h.run
  have hanswer : run.answer = none := by
    unfold answer? at unanswered
    rw [hrun] at unanswered
    exact unanswered
  unfold isComplete
  rw [hrun, Bool.and_eq_true, List.all_eq_true]
  refine ⟨?_, fun entry hentry => ?_⟩
  · change run.answer.isNone = true
    rw [hanswer]
    rfl
  · have hj := mem_jobsOf hentry
    have hmem : entry.1 ∈ c.jobs := by
      rw [← h.map_fst_jobsOf]
      exact List.mem_map_of_mem hentry
    -- a run that is over has a result for each job, and only a finished job has one
    obtain ⟨result, hexit⟩ := hover entry.1 hmem
    rw [exit?_of_job hj] at hexit
    change entry.2.phase.isFinished = true
    cases hp : entry.2.phase with
    | finished => rfl
    | waiting | granted | running | settled | leaving => simp [hp, Phase.exit?] at hexit

/-- The last task of a run to give its slot back brings the conclusion of the run. -/
theorem due_of_released {result : Result}
    (h : c.CarriesOut request (s.reportBack job result)) (of : job.run? = some c.run)
    (hover : c.Over (s.reportBack job result))
    (unanswered : c.answer? (s.reportBack job result) = none) :
    .conclude c.run ∈ (s.reportBack job result).queue := by
  have hcomplete := h.isComplete_of_over hover unanswered
  -- the conclusion itself is no part of what completeness is about
  have hclosing : (s.blamed job result).closing job = [.conclude c.run] := by
    have hblamed : (s.blamed job result).isComplete c.run = true := by
      rw [reportBack_eq] at hcomplete
      exact hcomplete
    unfold closing
    rw [of]
    exact if_pos hblamed
  rw [reportBack_queue, hclosing]
  exact List.mem_append_right _ (List.mem_singleton_self _)

/-- The conclusion of a run stays in the queue until the run has its answer. -/
theorem conclude_stays (opened : c.run < s.runs.length) (ticked : Ticked s t)
    (mem : .conclude c.run ∈ s.queue) (unanswered : c.answer? t = none) :
    .conclude c.run ∈ t.queue := by
  obtain ⟨more, hmore⟩ := ticked.queue
  have hrest : .conclude c.run ∈ s.popped.queue → .conclude c.run ∈ t.queue := by
    intro hmem
    rw [hmore]
    exact List.mem_append_left _ hmem
  -- it is drawn only when the run is concluded
  cases ticked with
  | quiet => exact mem
  | started queue | bounced queue | finished queue | released queue =>
    rw [queue] at mem
    exact hrest ((List.mem_cons.mp mem).resolve_left (by simp))
  | @concluded number queue =>
    rw [queue] at mem
    rcases List.mem_cons.mp mem with heq | hmem
    · obtain rfl := Work.conclude.inj heq
      exfalso
      rcases (conclude_own c s.popped).2 with hsame | ⟨-, run, -, hanswered⟩
      · obtain ⟨run, hrun⟩ : ∃ run, s.runs[c.run]? = some run :=
          ⟨_, List.getElem?_eq_getElem opened⟩
        -- a run without an answer would have got one
        have hanswer : run.answer = none := by
          have hnone := hsame.symm.trans unanswered
          unfold answer? at hnone
          rw [show s.popped.runs[c.run]? = some run from hrun] at hnone
          exact hnone
        have hconcluded := conclude_eq (s := s.popped) hrun hanswer
        unfold answer? at unanswered
        rw [hconcluded] at unanswered
        change ((s.popped.look.runs.modify c.run _)[c.run]?).bind _ = none at unanswered
        rw [List.getElem?_modify_eq, look_runs, show s.popped.runs[c.run]? = some run from hrun]
          at unanswered
        exact absurd unanswered (by simp)
      · exact absurd (hanswered.symm.trans unanswered) (by simp)
    · exact hrest hmem

/-- What holds of the answer of a run at every moment, as long as none of its tasks crashes. -/
structure Concludes (c : Crew) (request : Request) (s : State) : Prop where
  /-- A run that is over and has no answer yet is about to get one. -/
  due : c.Over s → c.answer? s = none → .conclude c.run ∈ s.queue
  /-- The answer is made of a report on all tasks. -/
  answered : ∀ answer, c.answer? s = some answer →
    ∃ report, c.Reported s report ∧ answer = report.verdict request.strict

/-- A run has no answer while one of its tasks still holds its slot. -/
theorem Concludes.unanswered (h : c.Concludes request s) (not_over : ¬ c.Over s) :
    c.answer? s = none := by
  cases hanswer : c.answer? s with
  | none => rfl
  | some answer =>
    obtain ⟨report, hreported, -⟩ := h.answered answer hanswer
    exact absurd hreported.allOver not_over

theorem Concludes.answered_step (h : c.Concludes request (first.after moves))
    (tracked : c.Tracked request first moves)
    (carriesOut : c.CarriesOut request (first.after moves)) (clean : c.Clean (first.after moves))
    (effect : c.Effect request (first.after moves) t) :
    ∀ answer, c.answer? t = some answer →
      ∃ report, c.Reported t report ∧ answer = report.verdict request.strict := by
  intro answer hanswer
  -- an answer from before is still made of the same report
  have hkeep : (∀ i ∈ c.jobs, t.exit? i = (first.after moves).exit? i) →
      c.failures? t = c.failures? (first.after moves) →
      c.answer? t = c.answer? (first.after moves) →
      ∃ report, c.Reported t report ∧ answer = report.verdict request.strict := by
    intro hexits hfailures hsame
    obtain ⟨report, hreported, hverdict⟩ := h.answered answer (hsame ▸ hanswer)
    exact ⟨report, hreported.congr hexits hfailures, hverdict⟩
  have hnone : ¬ c.Over (first.after moves) → c.answer? t = c.answer? (first.after moves) →
      ∃ report, c.Reported t report ∧ answer = report.verdict request.strict := by
    intro hnot hsame
    exact absurd ((hsame.trans (h.unanswered hnot)).symm.trans hanswer) (by simp)
  cases effect with
  | still exits run => exact hkeep exits (failures?_of_unsigned run) (answer?_of_unsigned run)
  | noted mem _ before _ _ _ _ _ same =>
    exact hnone (fun hover => (hover.exit?_ne mem).1 before) same
  | crashed mem before _ same => exact hnone (fun hover => (hover.exit?_ne mem).1 before) same
  | @released number result mem before _ _ same =>
    rcases same with ⟨-, hsame⟩ | ⟨fault, rfl, -⟩
    · exact hnone (fun hover => (hover.exit?_ne mem).2 result before) hsame
    · exact absurd (result?_eq before) (clean number mem fault)
  | concluded due exits failures answered =>
    rcases answered with hsame | ⟨-, run, hrun, hnew⟩
    · exact hkeep exits failures hsame
    · -- the report is made from what the tasks have come to
      obtain ⟨ended, ledger⟩ := tracked.ledger clean
      have hover := tracked.due due
      have hreported := reported_of_over carriesOut hover
        (fun _ hlt => ledger.exists_outcome hover hlt) hrun
      refine ⟨_, hreported.congr exits failures, ?_⟩
      obtain ⟨run', hrun', -, hstrict⟩ := carriesOut.run
      obtain rfl := Option.some.inj (hrun.symm.trans hrun')
      rw [← hstrict]
      exact Option.some.inj (hanswer.symm.trans hnew)

/-- A move after which the run is over, and was not before, is the return of a slot. -/
theorem Effect.over_before (effect : c.Effect request s t) (hover : c.Over t) :
    c.Over s ∨ ∃ number ∈ c.jobs, ∃ result, s.exit? number = some (result, false) ∧
      t.exit? number = some (result, true) := by
  have hsame : (∀ i ∈ c.jobs, t.exit? i = s.exit? i) → c.Over s :=
    fun exits => over_congr (fun i hi => (exits i hi).symm) hover
  cases effect with
  | still exits => exact Or.inl (hsame exits)
  | noted mem _ _ exits =>
    have hexit := exits _ mem
    rw [if_pos rfl] at hexit
    exact absurd hexit ((hover.exit?_ne mem).2 _)
  | crashed mem _ exits =>
    have hexit := exits _ mem
    rw [if_pos rfl] at hexit
    exact absurd hexit ((hover.exit?_ne mem).2 _)
  | @released number result mem before exits =>
    refine Or.inr ⟨number, mem, result, before, ?_⟩
    rw [exits _ mem, if_pos rfl]
  | concluded _ exits => exact Or.inl (hsame exits)

/-- A run that is over stays so. -/
theorem Effect.over (effect : c.Effect request s t) (hover : c.Over s) : c.Over t := by
  cases effect with
  | still exits => exact over_congr exits hover
  | noted mem _ before => exact absurd before (hover.exit?_ne mem).1
  | crashed mem before => exact absurd before (hover.exit?_ne mem).1
  | @released number result mem before => exact absurd before ((hover.exit?_ne mem).2 result)
  | concluded _ exits => exact over_congr exits hover

/-- A run that has an answer keeps it. -/
theorem Effect.unanswered (effect : c.Effect request s t) (h : c.answer? t = none) :
    c.answer? s = none := by
  cases effect with
  | still _ run => exact (answer?_of_unsigned run).symm.trans h
  | noted _ _ _ _ _ _ _ _ same => exact same.symm.trans h
  | crashed _ _ _ same => exact same.symm.trans h
  | released _ _ _ _ same =>
    rcases same with ⟨-, hsame⟩ | ⟨fault, -, hblamed⟩
    · exact hsame.symm.trans h
    · exact absurd (hblamed.symm.trans h) (by simp)
  | concluded _ _ _ answered =>
    rcases answered with hsame | ⟨hnone, -⟩
    · exact hsame.symm.trans h
    · exact hnone

theorem due_ticked (due : c.Over s → c.answer? s = none → .conclude c.run ∈ s.queue)
    (carriesOut : c.CarriesOut request s) (line : InLine capacity 0 s begun admitted)
    (ticked : Ticked s t) (effect : c.Effect request s t) (hover : c.Over t)
    (unanswered : c.answer? t = none) : .conclude c.run ∈ t.queue := by
  rcases effect.over_before hover with hbefore | ⟨number, hmem, result, before, gone⟩
  · exact conclude_stays carriesOut.lt_length ticked
      (due hbefore (effect.unanswered unanswered)) unanswered
  · obtain ⟨job, hj, rfl⟩ := ticked.released_of_exit? line before gone
    exact due_of_released (carriesOut.ticked ticked) ((carriesOut.mem_iff number job hj).mpr hmem)
      hover unanswered

theorem due_receive (carriesOut : c.CarriesOut request s)
    (due : c.Over s → c.answer? s = none → .conclude c.run ∈ s.queue)
    {stimulus : Stimulus} (effect : c.Effect request s (s.receive stimulus))
    (hover : c.Over (s.receive stimulus)) (unanswered : c.answer? (s.receive stimulus) = none) :
    .conclude c.run ∈ (s.receive stimulus).queue := by
  have hbefore : c.Over s :=
    over_congr
      (fun i hi => (receive_exit? s stimulus fun job hj => carriesOut.isTask hj hi).symm) hover
  obtain ⟨more, hmore⟩ := receive_queue s stimulus
  rw [hmore]
  exact List.mem_append_left _ (due hbefore (effect.unanswered unanswered))

/-- A run that has just been opened has no answer, and is concluded at once if it has no tasks. -/
theorem concludes_receive (request : Request) :
    (ofRequest s request).Concludes request (s.receive (.settle request)) := by
  have hanswer : (ofRequest s request).answer? (s.receive (.settle request)) = none := by
    change ((s.submit request).runs[s.runs.length]?).bind (·.answer) = none
    rw [submit_runs, List.getElem?_append_right (Nat.le_refl _), Nat.sub_self]
    rfl
  refine ⟨fun hover _ => ?_, fun answer hsome => absurd (hanswer.symm.trans hsome) (by simp)⟩
  change .conclude s.runs.length ∈ (s.submit request).queue
  rw [submit_eq]
  split
  · exact List.mem_append_right _ (List.mem_singleton_self _)
  · next hsome =>
    -- a run with tasks is not over before it has begun
    exfalso
    have hpos : 0 < request.tasks.length := by
      rw [← length_newcomers s request]
      exact List.length_pos_iff.mpr fun hnil => hsome (List.isEmpty_iff.mpr hnil)
    have hmem : s.jobs.length + 0 ∈ (ofRequest s request).jobs := first_add_mem hpos
    obtain ⟨result, hexit⟩ := hover _ hmem
    rw [receive_exit?_unborn (Nat.le_add_right _ _), exit?_unborn (Nat.le_add_right _ _)] at hexit
    exact absurd hexit (by simp)

section Moves

variable {origin : State}

/-- A run that is over and has no answer yet is about to get one, whatever the clock shows. -/
theorem due_of_regular (regular : origin.Regular capacity) (request : Request)
    (later : List Move) :
    let first := origin.receive (.settle request)
    let c := ofRequest origin request
    c.Over (first.after later) → c.answer? (first.after later) = none →
      .conclude c.run ∈ (first.after later).queue := by
  intro first c
  induction later using List.reverseRecOn with
  | nil => exact (concludes_receive request).due
  | append_singleton later m ih =>
    obtain ⟨hcarries, -⟩ := tracked_of_regular regular request later
    have heffect := (effect_move regular later m hcarries).2
    rw [after_concat] at heffect ⊢
    cases m with
    | arrive stimulus => exact due_receive hcarries ih heffect
    | tick =>
      obtain ⟨begun, admitted, hline⟩ :=
        (regular.after (.arrive (.settle request) :: later)).inLine
      exact due_ticked ih hcarries hline hline.ticked heffect

/-- **The answer of a run comes when it is over**, through everything that happens after its
submission, while the clock shows a date. -/
theorem concludes_of_regular (regular : origin.Regular capacity) (request : Request)
    (later : List Move) :
    let first := origin.receive (.settle request)
    (∀ moment, moment <+: later → (first.after moment).Dated) →
      (ofRequest origin request).Concludes request (first.after later) := by
  intro first dated
  -- on the moves; each one keeps what is due and what an answer says
  induction later using List.reverseRecOn with
  | nil => exact concludes_receive request
  | append_singleton later m ih =>
    have hearlier : ∀ moment, moment <+: later → (first.after moment).Dated :=
      fun moment hmoment => dated moment (hmoment.trans (List.prefix_append _ _))
    have hconcludes := ih hearlier
    have hclean := clean_of_regular regular request later hearlier
    obtain ⟨hcarries, htracked⟩ := tracked_of_regular regular request later
    have heffect := (effect_move regular later m hcarries).2
    exact ⟨due_of_regular regular request (later ++ [m]),
      hconcludes.answered_step htracked hcarries hclean heffect⟩

theorem concludes_after (positive : 0 < capacity) (clock : Number) (level : Log.Level)
    (shell : Shell) (before : List Move) (request : Request) (later : List Move) :
    let origin := (fresh positive clock level shell).after before
    let first := origin.receive (.settle request)
    (∀ moment, moment <+: later → (first.after moment).Dated) →
      (ofRequest origin request).Concludes request (first.after later) :=
  concludes_of_regular (regular_after positive clock level shell before) request later

/-- A run all of whose tasks have settled has its answer once no work is left. -/
theorem answer_of_quiet (regular : origin.Regular capacity) (request : Request)
    (later : List Move) :
    let first := origin.receive (.settle request)
    let c := ofRequest origin request
    (∀ i ∈ c.jobs, i ∉ (first.after later).unsettled) → (first.after later).queue = [] →
      c.answer? (first.after later) ≠ none := by
  intro first c settled quiet unanswered
  have hcarries := (tracked_of_regular regular request later).1
  have hdue := due_of_regular regular request later (hcarries.over_iff.mpr settled) unanswered
  rw [quiet] at hdue
  exact absurd hdue List.not_mem_nil

/-- A run that is over stays so, whatever happens. -/
theorem over_append (regular : origin.Regular capacity) (request : Request)
    (later more : List Move) :
    let first := origin.receive (.settle request)
    let c := ofRequest origin request
    c.Over (first.after later) → c.Over (first.after (later ++ more)) := by
  intro first c hover
  induction more using List.reverseRecOn with
  | nil => exact (List.append_nil later).symm ▸ hover
  | append_singleton more m ih =>
    rw [← List.append_assoc]
    have hcarries := (tracked_of_regular regular request (later ++ more)).1
    exact (effect_move regular (later ++ more) m hcarries).2.over ih

end Moves

/-! ## What has become of a run that has its answer -/

/-- The answer that a run has got, and what had become of its tasks by then. -/
structure Answered (c : Crew) (request : Request) (first : State) (later : List Move)
    (answer : Except Fault Report) (report : Report) (ended : List (Nat × Ending)) : Prop where
  /-- All tasks have settled. -/
  settled : ∀ i ∈ c.jobs, i ∉ (first.after later).unsettled
  /-- The report accounts for all of them. -/
  accounts : c.Accounts request first later report ended
  /-- The answer is the report, or one error for all failures in it. -/
  answer_eq : answer = report.verdict request.strict
  /-- There are failures exactly if a task has failed. -/
  failures_eq_nil : report.failures = [] ↔ ∀ outcome ∈ report.tasks, outcome.status = .ok
  /-- Of every task the start, the entry of its body and the end with its outcome have been told,
  and nothing else. -/
  told : ∀ place task, request.tasks[place]? = some task →
    ∃ aborted outcome, report.tasks[place]? = some outcome ∧
      (first.after later).account (c.first + place)
        = request.history (c.first + place) place task aborted outcome

/-- A report tells of every task how it ended. -/
theorem Accounts.exists_tells {report : Report} {ended : List (Nat × Ending)}
    (h : c.Accounts request first moves report ended) {place : Nat} {task : Task}
    (task_eq : request.tasks[place]? = some task) :
    ∃ outcome ending, report.tasks[place]? = some outcome ∧ outcome.Tells task place ending := by
  have hlt : place < request.tasks.length := (List.getElem?_eq_some_iff.mp task_eq).1
  obtain ⟨entry, hentry, rfl⟩ := List.mem_map.mp (h.perm.mem_iff.mpr (List.mem_range.mpr hlt))
  obtain ⟨other, outcome, hother, -, houtcome, htells⟩ := h.tells entry hentry
  obtain rfl := Option.some.inj (task_eq.symm.trans hother)
  exact ⟨outcome, entry.2, houtcome, htells⟩

/-- Every outcome of a report tells how some task ended. -/
theorem Accounts.exists_tells_of_mem {report : Report} {ended : List (Nat × Ending)}
    (h : c.Accounts request first moves report ended) {outcome : Outcome}
    (mem : outcome ∈ report.tasks) : ∃ task place ending, outcome.Tells task place ending := by
  obtain ⟨place, hplace⟩ := List.getElem?_of_mem mem
  have hlt : place < request.tasks.length := by
    rw [← h.length]
    exact (List.getElem?_eq_some_iff.mp hplace).1
  obtain ⟨other, ending, hother, htells⟩ := h.exists_tells (List.getElem?_eq_getElem hlt)
  obtain rfl := Option.some.inj (hplace.symm.trans hother)
  exact ⟨_, place, ending, htells⟩

/-- The outcomes with an error are those that have failed. -/
theorem Accounts.error_eq_none_iff {report : Report} {ended : List (Nat × Ending)}
    (h : c.Accounts request first moves report ended) {outcome : Outcome}
    (mem : outcome ∈ report.tasks) : outcome.error = none ↔ outcome.status = .ok := by
  obtain ⟨task, place, ending, htells⟩ := h.exists_tells_of_mem mem
  rw [htells.error, htells.status]
  split <;> simp

theorem Accounts.failures_eq_nil {report : Report} {ended : List (Nat × Ending)}
    (h : c.Accounts request first moves report ended) :
    report.failures = [] ↔ ∀ outcome ∈ report.tasks, outcome.status = .ok := by
  have hnil : report.failures = [] ↔ report.tasks.filterMap (·.error) = [] := by
    have hperm := h.failures_perm
    constructor
    · intro hnone
      rw [hnone] at hperm
      exact List.nil_perm.mp hperm
    · intro hnone
      rw [hnone] at hperm
      exact List.perm_nil.mp hperm
  rw [hnil, List.filterMap_eq_nil_iff]
  exact forall₂_congr fun outcome hmem => h.error_eq_none_iff hmem

/-- There are as many failures as outcomes that have failed. -/
theorem Accounts.length_failures {report : Report} {ended : List (Nat × Ending)}
    (h : c.Accounts request first moves report ended) :
    report.failures.length = report.tasks.countP (decide <| ·.status = .failed) := by
  rw [h.failures_perm.length_eq, List.length_filterMap_eq_countP]
  refine List.countP_congr fun outcome hmem => ?_
  have hnone := h.error_eq_none_iff hmem
  cases hstatus : outcome.status with
  | ok => simp [hnone.mpr hstatus]
  | failed =>
    have hsome : outcome.error ≠ none := fun herror => by simp [hnone.mp herror] at hstatus
    simp [Option.isSome_iff_ne_none, hsome]

theorem Chronicled.told_of_over (h : c.Chronicled request s) {place : Nat} {task : Task}
    (task_eq : request.tasks[place]? = some task) {outcome : Outcome}
    (hexit : s.exit? (c.first + place) = some (.outcome outcome, true)) :
    ∃ aborted, s.account (c.first + place)
      = request.history (c.first + place) place task aborted outcome := by
  obtain ⟨job, hj, chronicled⟩ := h place task task_eq
  rw [exit?_of_job hj] at hexit
  have hrecorded := chronicled.recorded
  cases hp : job.phase with
  | finished result =>
    rw [hp] at hexit hrecorded
    exact hrecorded outcome (Prod.mk.inj (Option.some.inj hexit)).1
  | waiting | granted | running | settled | leaving => simp [hp, Phase.exit?] at hexit

/-- What has been told of a task is the beginning of all that is told of it. -/
theorem Chronicled.told_of_task (h : c.Chronicled request s) {place : Nat} {task : Task}
    (task_eq : request.tasks[place]? = some task)
    (outcomes : s.result? (c.first + place) ≠ none →
      ∃ outcome, s.result? (c.first + place) = some (.outcome outcome)) :
    ∃ aborted outcome, s.account (c.first + place)
      <+: request.history (c.first + place) place task aborted outcome := by
  obtain ⟨job, hj, chronicled⟩ := h place task task_eq
  have hrecorded := chronicled.recorded
  have hresult : s.result? (c.first + place) = job.phase.exit?.map Prod.fst :=
    congrArg (Option.map Prod.fst) (exit?_of_job hj)
  rw [hresult] at outcomes
  -- the phase says how much of the history has been told
  cases hp : job.phase with
  | waiting | granted =>
    rw [hp] at hrecorded
    rw [show s.account (c.first + place) = [] from hrecorded]
    exact ⟨false, default, List.nil_prefix⟩
  | running | settled =>
    rw [hp] at hrecorded
    obtain ⟨aborted, hwelcome⟩ := hrecorded
    rw [hwelcome]
    exact ⟨aborted, default, List.prefix_append _ _⟩
  | leaving result | finished result =>
    rw [hp] at hrecorded outcomes
    obtain ⟨outcome, houtcome⟩ := outcomes (Option.some_ne_none _)
    obtain ⟨aborted, htold⟩ := hrecorded outcome (Option.some.inj houtcome)
    rw [htold]
    exact ⟨aborted, outcome, List.prefix_refl _⟩

/-- While the clock shows a date, the answer of a run is made of a report that accounts for all its
tasks. -/
theorem accounts_of_answer {origin : State} (regular : origin.Regular capacity) (request : Request)
    (later : List Move) :
    let first := origin.receive (.settle request)
    let c := ofRequest origin request
    (∀ moment, moment <+: later → (first.after moment).Dated) →
      ∀ answer, c.answer? (first.after later) = some answer →
        ∃ report ended, c.Reported (first.after later) report ∧
          c.Accounts request first later report ended ∧ answer = report.verdict request.strict := by
  intro first c dated answer hanswer
  have hclean := clean_of_regular regular request later dated
  obtain ⟨report, hreported, hverdict⟩ :=
    (concludes_of_regular regular request later dated).answered answer hanswer
  obtain ⟨ended, ledger⟩ := (tracked_of_regular regular request later).2.ledger hclean
  exact ⟨report, ended, hreported, ledger.accounts rfl hreported, hverdict⟩

section CarriedOut

variable (positive : 0 < capacity) (clock : Number) (level : Log.Level) (shell : Shell)
  (before : List Move) (request : Request) (later : List Move)

/-- While the clock shows a date, the answer of a run is that of a run carried out in full. -/
theorem answered_of_answer :
    let origin := (fresh positive clock level shell).after before
    let first := origin.receive (.settle request)
    let c := ofRequest origin request
    (∀ moment, moment <+: later → (first.after moment).Dated) →
      ∀ answer, c.answer? (first.after later) = some answer →
        ∃ report ended, c.Answered request first later answer report ended := by
  intro origin first c dated answer hanswer
  have hcarries := (tracked_after positive clock level shell before request later).1
  have hchronicled := chronicled_after positive clock level shell before request later
  obtain ⟨report, ended, hreported, haccounts, hverdict⟩ := accounts_of_answer
    (regular_after positive clock level shell before) request later dated answer hanswer
  refine ⟨report, ended, hcarries.over_iff.mp hreported.allOver, haccounts, hverdict,
    haccounts.failures_eq_nil, fun place task htask => ?_⟩
  -- a task in the report has given its slot back with the outcome that is reported
  have hlt : place < c.size := (List.getElem?_eq_some_iff.mp htask).1
  obtain ⟨outcome, houtcome, hresult⟩ := hreported.task place hlt
  obtain ⟨result, hexit⟩ := hreported.allOver _ (first_add_mem hlt)
  rw [result?_eq hexit] at hresult
  rw [Option.some.inj hresult] at hexit
  obtain ⟨aborted, htold⟩ := hchronicled.told_of_over htask hexit
  exact ⟨aborted, outcome, houtcome, htold⟩

theorem answer_of_settled :
    let origin := (fresh positive clock level shell).after before
    let first := origin.receive (.settle request)
    let c := ofRequest origin request
    (∀ i ∈ c.jobs, i ∉ (first.after later).unsettled) → (first.after later).queue = [] →
      c.answer? (first.after later) ≠ none :=
  answer_of_quiet (regular_after positive clock level shell before) request later

/-- A run all of whose tasks have settled gets its answer without anything else happening. -/
theorem answer_after_ticks :
    let origin := (fresh positive clock level shell).after before
    let first := origin.receive (.settle request)
    let c := ofRequest origin request
    let s := first.after later
    (∀ i ∈ c.jobs, i ∉ s.unsettled) →
      ∃ n, (s.after (List.replicate n .tick)).queue = [] ∧
        c.answer? (s.after (List.replicate n .tick)) ≠ none := by
  intro origin first c s settled
  -- all work comes to an end, and the run is still over by then
  obtain ⟨begun, admitted, hline⟩ := inLine_after positive clock level shell
    (before ++ .arrive (.settle request) :: later)
  rw [after_append] at hline
  obtain ⟨n, hn⟩ := drainWithin_eq_after s.effort s
  have hquiet : (s.after (List.replicate n .tick)).queue = [] := hn ▸ hline.queue_drain
  have hcarries := (tracked_after positive clock level shell before request later).1
  have hover := over_append (regular_after positive clock level shell before) request later
    (List.replicate n .tick) (hcarries.over_iff.mpr settled)
  have hlater := (tracked_after positive clock level shell before request
    (later ++ List.replicate n .tick)).1
  refine ⟨n, hquiet, ?_⟩
  have hanswer := answer_of_settled positive clock level shell before request
    (later ++ List.replicate n .tick) (hlater.over_iff.mp hover)
  rw [after_append] at hanswer
  exact hanswer hquiet

/-- The submission of a run without tasks puts its conclusion into the queue, and asks for no
slot. -/
theorem receive_of_nil {origin : State} (empty : request.tasks = []) :
    origin.receive (.settle request)
      = (origin.opened request).enqueue (.conclude origin.runs.length) := by
  change origin.submit request = _
  rw [submit_eq]
  refine if_pos (List.isEmpty_iff.mpr (List.length_eq_zero_iff.mp ?_))
  rw [length_newcomers, empty, List.length_nil]

/-- While the clock shows a date, a run without tasks has resolved once no work is left. -/
theorem resolved_of_nil (empty : request.tasks = []) :
    let origin := (fresh positive clock level shell).after before
    let first := origin.receive (.settle request)
    let c := ofRequest origin request
    (∀ moment, moment <+: later → (first.after moment).Dated) → (first.after later).queue = [] →
      ∃ report, c.answer? (first.after later) = some (.ok report) := by
  intro origin first c dated quiet
  have hcarries := (tracked_after positive clock level shell before request later).1
  have hsize : c.size = 0 := by
    rw [hcarries.size, empty, List.length_nil]
  have hvacuous : ∀ i ∈ c.jobs, i ∉ (first.after later).unsettled := by
    intro i hi
    have := mem_jobs.mp hi
    omega
  obtain ⟨answer, hanswer⟩ := Option.ne_none_iff_exists'.mp
    (answer_of_settled positive clock level shell before request later hvacuous quiet)
  obtain ⟨report, ended, answered⟩ :=
    answered_of_answer positive clock level shell before request later dated answer hanswer
  -- without tasks there are no failures
  have htasks : report.tasks = [] := by
    rw [← List.length_eq_zero_iff, answered.accounts.length, empty, List.length_nil]
  have hfailures : report.failures = [] :=
    answered.failures_eq_nil.mpr fun outcome hmem => absurd (htasks ▸ hmem) List.not_mem_nil
  refine ⟨report, hanswer.trans (congrArg some (answered.answer_eq.trans ?_))⟩
  unfold Report.verdict
  rw [hfailures, List.isEmpty_nil, Bool.not_true, Bool.and_false]
  exact if_neg Bool.false_ne_true

/-- **Every task is carried out once, and the run is answered when the last one has settled.**
Whatever the tasks do, whenever the run is aborted and whatever else shares its slots, while the
clock shows a date:

* at every moment, what has been told of a task is the beginning of its history, in which its start
  hook is called, its body is entered and its end hook is called, each once and in this order;
* when the run has an answer, all its tasks have settled, the histories of all of them are complete,
  and the answer is their report, or, for a strict run with failures, one error that holds them in
  the order in which the tasks ended;
* when all tasks have settled, the run has its answer at the first moment at which no work is left,
  and there is such a moment without anything else happening;
* a run without tasks asks for no slot, and has resolved at the first such moment. -/
theorem carriedOut_once
    (dated : ∀ moment, moment <+: later →
      ((((fresh positive clock level shell).after before).receive (.settle request)).after
        moment).Dated) :
    let origin := (fresh positive clock level shell).after before
    let first := origin.receive (.settle request)
    let c := ofRequest origin request
    let s := first.after later
    (∀ place task, request.tasks[place]? = some task → ∃ aborted outcome,
      s.account (c.first + place)
        <+: request.history (c.first + place) place task aborted outcome) ∧
    (∀ answer, c.answer? s = some answer →
      ∃ report ended, c.Answered request first later answer report ended) ∧
    ((∀ i ∈ c.jobs, i ∉ s.unsettled) →
      (s.queue = [] → c.answer? s ≠ none) ∧
        ∃ n, (s.after (List.replicate n .tick)).queue = [] ∧
          c.answer? (s.after (List.replicate n .tick)) ≠ none) ∧
    (request.tasks = [] → first.slots = origin.slots ∧ first.jobs = origin.jobs ∧
      (s.queue = [] → ∃ report, c.answer? s = some (.ok report))) := by
  intro origin first c s
  have htracked := (tracked_after positive clock level shell before request later).2
  refine ⟨fun place task htask => ?_,
    answered_of_answer positive clock level shell before request later dated,
    fun settled =>
      ⟨answer_of_settled positive clock level shell before request later settled,
        answer_after_ticks positive clock level shell before request later settled⟩,
    fun hnone => ?_⟩
  · -- nothing crashes while the clock is in range, so each result is an outcome
    obtain ⟨ended, ledger⟩ :=
      htracked.ledger (clean_after positive clock level shell before request later dated)
    exact (chronicled_after positive clock level shell before request later).told_of_task htask
      (ledger.outcome_of_result? (List.getElem?_eq_some_iff.mp htask).1)
  · -- without tasks the conclusion is the only work that is queued
    have hfirst : first = _ := receive_of_nil request hnone
    rw [opened_eq] at hfirst
    exact ⟨hfirst ▸ rfl, hfirst ▸ rfl,
      resolved_of_nil positive clock level shell before request later hnone dated⟩

end CarriedOut

/-- A direct call that holds the only slot. -/
def holder : List Move := [.arrive (.call "other" (.manual none) true), .tick]

/-- A strict run with a task that throws and a task that takes some time. Its start hook throws at
the first of them. -/
def strictRun : Request :=
  { label := "run", strict := true, signal := .armed
    hooks :=
      { onStart := some { throws := fun place => if place = 0 then some (.text "no") else none }
        onEnd := some { throws := fun _ => none } }
    tasks :=
      [{ name := none, body := .prompt (.thrown (.text "a")) },
       { name := some "b", body := .timed 5 (.returned .absent) none }] }

/-- The run is aborted while it waits for the slot, which it then gets; and its timer fires. -/
def abortedEarly : List Move :=
  [.arrive (.abort 0), .arrive (.finish 0 (.returned .absent))] ++ List.replicate 6 .tick
    ++ .arrive (.fire 0) :: List.replicate 3 .tick

theorem carriedOut_once_strictRun :
    let origin := (fresh Nat.one_pos 0 .info []).after holder
    let first := origin.receive (.settle strictRun)
    let c := ofRequest origin strictRun
    let s := first.after abortedEarly
    (∀ moment, moment <+: abortedEarly → (first.after moment).Dated) ∧ s.queue = [] ∧
      ∃ fault report ended, c.answer? s = some (.error fault) ∧ fault.message = "a" ∧
        c.Answered strictRun first abortedEarly (.error fault) report ended := by
  intro origin first c s
  have dated : ∀ moment, moment <+: abortedEarly → (first.after moment).Dated := by
    have hall : ∀ moment ∈ abortedEarly.inits, (first.after moment).Dated := by decide +kernel
    exact fun moment hmoment => hall moment ((List.mem_inits ..).mpr hmoment)
  obtain ⟨-, answered, -⟩ :=
    carriedOut_once Nat.one_pos 0 .info [] holder strictRun abortedEarly dated
  -- the run is strict and its first task failed, so the answer is an error
  have message : (c.answer? s).bind
      (fun answer => match answer with
        | .error fault => some fault.message
        | .ok _ => none) = some "a" := by
    decide +kernel
  obtain ⟨answer, hanswer, hmessage⟩ := Option.bind_eq_some_iff.mp message
  cases answer with
  | ok report => exact absurd hmessage (by simp)
  | error fault =>
    obtain ⟨report, ended, hanswered⟩ := answered (.error fault) hanswer
    exact ⟨dated, by decide +kernel, fault, report, ended, hanswer, Option.some.inj hmessage,
      hanswered⟩

end Crew

end BoundedJobs
