import BoundedJobs.Proofs.Runner.Chronicle

/-!
# What holds of every job of a run

Some properties of jobs are kept by whatever moves a job on to its next phase. A property of this
kind holds of all jobs of a run at every moment once it holds of those that have just been
submitted.

* `Crew.Each` — a property holds of all jobs of a run;
* `Crew.Kept` — it is kept where a job is granted a slot, starts, comes to its end and gives its
  slot back;
* `Each.receive`, `Each.ticked` — then every move keeps it.
-/

namespace BoundedJobs

namespace Crew

open State

variable {c : Crew} {request : Request} {s t : State} {number : Nat} {job : Job}
  {capacity begun admitted : Nat} {P : Nat → Job → Prop}

/-- A property holds of all jobs of a run. -/
def Each (c : Crew) (s : State) (P : Nat → Job → Prop) : Prop :=
  ∀ i ∈ c.jobs, ∃ job, s.jobs[i]? = some job ∧ P i job

theorem Each.congr (h : c.Each s P) (jobs : t.jobs = s.jobs) : c.Each t P := by
  unfold Each
  rw [jobs]
  exact h

/-- One job moves on to a phase. -/
theorem Each.place (h : c.Each s P) {phase : Phase}
    (moved : ∀ job, number ∈ c.jobs → s.jobs[number]? = some job → P number job →
      P number { job with phase }) : c.Each (s.place number phase) P := by
  intro i hi
  obtain ⟨job, hj, hP⟩ := h i hi
  by_cases heq : i = number
  · subst heq
    refine ⟨{ job with phase }, ?_, moved job hi hj hP⟩
    change (s.jobs.modify i _)[i]? = _
    rw [List.getElem?_modify_eq, hj]
    rfl
  · refine ⟨job, ?_, hP⟩
    change (s.jobs.modify number _)[i]? = _
    rw [List.getElem?_modify_ne _ _ (Ne.symm heq)]
    exact hj

/-- A stimulus lets bodies settle at most. -/
theorem Each.receive (h : c.Each s P) (stimulus : Stimulus)
    (hears : ∀ i old new, P i old → old.phase.Hears new.phase → new.unphased = old.unphased →
      P i new) : c.Each (s.receive stimulus) P := by
  intro i hi
  obtain ⟨job, hj, hP⟩ := h i hi
  obtain ⟨job', hj', hsame⟩ := exists_job_after (receive_unphased s stimulus) hj
  refine ⟨job', hj', ?_⟩
  rcases (receive_phase s stimulus).2 _ _ hj' with ⟨old, hold, hhears⟩ | ⟨hle, -⟩
  · obtain rfl := Option.some.inj (hj.symm.trans hold)
    exact hears i job job' hP hhears hsame
  · exact absurd (List.getElem?_eq_some_iff.mp hj).1 (Nat.not_lt.mpr hle)

/-- A property is kept by the pieces of work that move a job of a run on. -/
structure Kept (c : Crew) (s : State) (P : Nat → Job → Prop) : Prop where
  tasks : ∀ i ∈ c.jobs, ∀ job, s.jobs[i]? = some job → job.run? ≠ none
  granted : ∀ i job, P i job → job.phase = .waiting → P i { job with phase := .granted }
  started : ∀ i ∈ c.jobs, ∀ job u phase, s.queue = .start i :: s.popped.queue →
    s.jobs[i]? = some job → P i job → job.phase = .granted → Opening s.popped i job u phase →
      P i { job with phase }
  finished : ∀ i ∈ c.jobs, ∀ job times ending u result, s.queue = .finish i :: s.popped.queue →
    P i job → job.phase = .settled times ending → Noted s.popped i job times ending u result →
      P i { job with phase := .leaving result }
  released : ∀ i job result, P i job → job.phase = .leaving result →
    P i { job with phase := .finished result }

theorem Each.passOn {spare : Nat} (h : c.Each s P) (line : InLine capacity spare s begun admitted)
    (granted : ∀ i job, P i job → job.phase = .waiting → P i { job with phase := .granted }) :
    c.Each s.passOn P := by
  cases hw : s.slots.waiters with
  | nil =>
    rw [passOn_of_idle hw]
    exact h
  | cons next others =>
    -- the job that is granted the slot has been waiting
    obtain ⟨job, hnext, hphase⟩ := line.job_of_waiter hw
    have hslots : c.Each { s with slots := { s.slots with waiters := others } } P := h
    rw [passOn_of_waiting hw]
    refine hslots.place fun other _ hother hP => ?_
    obtain rfl := Option.some.inj (hnext.symm.trans hother)
    exact granted next job hP hphase

/-- **A piece of work** moves one job on at most, and another one to its slot. -/
theorem Each.ticked (h : c.Each s P) (line : InLine capacity 0 s begun admitted)
    (ticked : Ticked s t) (kept : c.Kept s P) : c.Each t P := by
  cases ticked with
  | quiet => exact h
  | @started number job t phase queue job_eq granted opening =>
    refine (h.congr opening.sameLine.jobs).place fun other hmem hother hP => ?_
    rw [opening.sameLine.jobs] at hother
    obtain rfl := Option.some.inj (job_eq.symm.trans hother)
    exact kept.started number hmem job t phase queue job_eq hP granted opening
  | @bounced number job t value queue job_eq granted bounced =>
    -- a call that is over at once is no job of the run, but its slot may go to one
    have hplaced : c.Each (t.place number
        (.finished (.ofCall (s.popped.timesOf job) (.thrown value)))) P := by
      refine (h.congr bounced.sameLine.jobs).place fun other hmem hother _ => ?_
      exact absurd bounced.direct (kept.tasks number hmem job job_eq)
    exact hplaced.passOn (line.gaveUp queue job_eq granted bounced _) kept.granted
  | @finished number job times ending t result queue job_eq settled noted =>
    refine (h.congr noted.sameLine.jobs).place fun other hmem hother hP => ?_
    rw [noted.sameLine.jobs] at hother
    obtain rfl := Option.some.inj (job_eq.symm.trans hother)
    exact kept.finished number hmem job times ending t result queue hP settled noted
  | @released number job result queue job_eq leaving =>
    have hplaced : c.Each (s.popped.place number (.finished result)) P := by
      refine Each.place (s := s.popped) h fun other _ hother hP => ?_
      obtain rfl := Option.some.inj (job_eq.symm.trans hother)
      exact kept.released number job result hP leaving
    exact (hplaced.passOn (line.leave queue job_eq leaving) kept.granted).congr
      (reportBack_keeps _ _ _).1
  | @concluded number queue => exact h.congr (conclude_sameLine s.popped number).jobs

/-- A property of the jobs that come with a request holds of all jobs of its run at first. -/
theorem each_receive {request : Request} (enrolled : s.Enrolled)
    (newcomers : ∀ i job, job.unphased ∈ s.newcomers (.settle request) →
      job.phase = .granted ∨ job.phase = .waiting → P i job) :
    (ofRequest s request).Each (s.receive (.settle request)) P := by
  intro i hi
  obtain ⟨job, hj⟩ := (carriesOut_receive enrolled request).exists_job hi
  have hnew : s.jobs.length ≤ i := (mem_jobs.mp hi).1
  -- the jobs of the run are behind all that were there before
  have hunborn : ∀ old, s.jobs[i]? ≠ some old := fun old hold =>
    absurd hnew (Nat.not_le.mpr (List.getElem?_eq_some_iff.mp hold).1)
  refine ⟨job, hj, newcomers i job ?_ ?_⟩
  · rcases exists_job_before (receive_unphased s (.settle request)) hj with
      ⟨old, hold, -⟩ | ⟨-, hmem⟩
    · exact absurd hold (hunborn old)
    · exact List.mem_of_getElem? hmem
  · rcases (receive_phase s (.settle request)).2 _ _ hj with ⟨old, hold, -⟩ | ⟨-, hphase⟩
    · exact absurd hold (hunborn old)
    · exact hphase

end Crew

end BoundedJobs
