import BoundedJobs.Proofs.Runner.Arrival
import Mathlib.Data.List.Perm.Basic

/-!
# The line of jobs

The jobs of a runner stand in one line, in the order in which they were submitted. Two marks move
along it and never back: the jobs before `begun` have started, those from there to `admitted` hold
a slot and are about to start, and those behind wait for a slot. This is `State.InLine`:

* the semaphore's waiters are the jobs from `admitted` on, in their order, and the starts in the
  queue are those from `begun` to `admitted`, in their order;
* the queue holds exactly the work that the phases of the jobs ask for (`duties`);
* the held slots are those of the jobs that have been admitted and are not finished, and there are
  no more of them than the capacity; while anybody waits there are no fewer either.

The invariant holds at every moment, between any two pieces of work and between the elementary
steps of a stimulus. `InLine.ticked` reads a tick off it: no work is ever done in vain.
-/

namespace BoundedJobs

/-- The job that a piece of work is about. -/
def Work.job? : Work → Option Nat
  | start job | finish job | release job => some job
  | conclude _ => none

/-- The job that a piece of work starts. -/
def Work.start? : Work → Option Nat
  | start job => some job
  | _ => none

/-- Whether a job in this phase holds a slot. -/
def Phase.holds : Phase → Bool
  | waiting | finished _ => false
  | _ => true

/-- Whether a job in this phase has started. -/
def Phase.hasBegun : Phase → Bool
  | waiting | granted => false
  | _ => true

theorem Job.holds_ended (job : Job) (times : Times) (ending : Ending) :
    (job.ended times ending).holds = true := by
  unfold Job.ended
  split <;> rfl

theorem Job.hasBegun_ended (job : Job) (times : Times) (ending : Ending) :
    (job.ended times ending).hasBegun = true := by
  unfold Job.ended
  split <;> rfl

theorem Phase.job?_of_work? {phase : Phase} {number : Nat} {work : Work}
    (h : phase.work? number = some work) : work.job? = some number := by
  cases phase <;> simp only [Phase.work?, Option.some.injEq, reduceCtorEq] at h <;> subst h <;> rfl

theorem Phase.ne_waiting_of_hasBegun {phase : Phase} (h : phase.hasBegun = true) :
    phase ≠ .waiting := by
  rintro rfl
  exact Bool.noConfusion h

theorem Phase.ne_granted_of_hasBegun {phase : Phase} (h : phase.hasBegun = true) :
    phase ≠ .granted := by
  rintro rfl
  exact Bool.noConfusion h

/-! ## One job among the others -/

/-- A job of a list is still there, or is the one that has been changed. -/
theorem getElem?_modify_cases {jobs : List Job} {number i : Nat} {f : Job → Job} {job : Job}
    (h : (jobs.modify number f)[i]? = some job) :
    (i = number ∧ ∃ old, jobs[i]? = some old ∧ f old = job) ∨
      i ≠ number ∧ jobs[i]? = some job := by
  by_cases heq : i = number
  · subst heq
    rw [List.getElem?_modify_eq] at h
    exact Or.inl ⟨rfl, Option.map_eq_some_iff.mp h⟩
  · rw [List.getElem?_modify_ne _ _ (Ne.symm heq)] at h
    exact Or.inr ⟨heq, h⟩

theorem getElem?_concat_cases {jobs : List Job} {last job : Job} {i : Nat}
    (h : (jobs ++ [last])[i]? = some job) :
    (i < jobs.length ∧ jobs[i]? = some job) ∨ i = jobs.length ∧ job = last := by
  rcases Nat.lt_or_ge i jobs.length with hlt | hge
  · rw [List.getElem?_append_left hlt] at h
    exact Or.inl ⟨hlt, h⟩
  · rw [List.getElem?_append_right hge, List.getElem?_singleton] at h
    split at h
    · next hzero => exact Or.inr ⟨by omega, (Option.some.inj h).symm⟩
    · exact absurd h (by simp)

/-! ## The work that jobs ask for -/

/-- The work that the phases of jobs ask for. -/
def duties (jobs : List Job) : List Work :=
  jobs.zipIdx.filterMap fun entry => entry.1.phase.work? entry.2

theorem mem_duties {jobs : List Job} {work : Work} :
    work ∈ duties jobs ↔
      ∃ (number : Nat) (job : Job), jobs[number]? = some job ∧
        job.phase.work? number = some work := by
  unfold duties
  rw [List.mem_filterMap]
  constructor
  · rintro ⟨⟨job, number⟩, hmem, hwork⟩
    exact ⟨number, job, List.mk_mem_zipIdx_iff_getElem?.mp hmem, hwork⟩
  · rintro ⟨number, job, hjob, hwork⟩
    exact ⟨(job, number), List.mk_mem_zipIdx_iff_getElem?.mpr hjob, hwork⟩

theorem duties_append (jobs : List Job) (job : Job) :
    duties (jobs ++ [job]) = duties jobs ++ (job.phase.work? jobs.length).toList := by
  unfold duties
  rw [List.zipIdx_append, List.filterMap_append, List.zipIdx_singleton, Nat.zero_add]
  cases h : job.phase.work? jobs.length <;> simp [h]

/-- A job in the middle of a list, and the list with the job in another phase. -/
theorem exists_split {jobs : List Job} {number : Nat} {job : Job}
    (h : jobs[number]? = some job) :
    ∃ before after, jobs = before ++ job :: after ∧ before.length = number ∧
      ∀ f : Job → Job, jobs.modify number f = before ++ f job :: after := by
  obtain ⟨hlt, hget⟩ := List.getElem?_eq_some_iff.mp h
  refine ⟨jobs.take number, jobs.drop (number + 1), ?_, ?_, fun f => ?_⟩
  · rw [← hget, ← List.drop_eq_getElem_cons hlt, List.take_append_drop]
  · rw [List.length_take, Nat.min_eq_left (Nat.le_of_lt hlt)]
  · rw [List.modify_eq_take_cons_drop hlt, hget]

/-- A job that moves on to a phase gives up the work of its old phase for that of the new one. -/
theorem duties_modify {jobs : List Job} {number : Nat} {job : Job}
    (h : jobs[number]? = some job) (phase : Phase) {rest : List Work}
    (hperm : ((job.phase.work? number).toList ++ rest).Perm (duties jobs)) :
    (rest ++ (phase.work? number).toList).Perm
      (duties (jobs.modify number fun j => { j with phase })) := by
  obtain ⟨before, after, hjobs, hlen, hmodify⟩ := exists_split h
  -- the work of one job in the middle, whatever its phase
  have hduties : ∀ j : Job, duties (before ++ j :: after) = duties before
      ++ ((j.phase.work? number).toList
        ++ (after.zipIdx (number + 1)).filterMap fun entry => entry.1.phase.work? entry.2) := by
    intro j
    unfold duties
    rw [List.zipIdx_append, List.filterMap_append, List.zipIdx_cons, Nat.zero_add, hlen]
    cases hw : j.phase.work? number <;> simp [hw]
  rw [hmodify, hduties]
  rw [hjobs, hduties] at hperm
  -- the old work leaves both sides, and the new work joins both
  have hrest : rest.Perm (duties before
      ++ (after.zipIdx (number + 1)).filterMap fun entry => entry.1.phase.work? entry.2) :=
    (List.perm_append_left_iff _).mp (hperm.trans (List.perm_append_comm_assoc _ _ _))
  exact (List.perm_append_comm.trans (hrest.append_left _)).trans
    (List.perm_append_comm_assoc _ _ _)

/-- A job that moves on changes the number of jobs with a property by what it changes itself. -/
theorem countP_modify {jobs : List Job} {number : Nat} {job : Job}
    (h : jobs[number]? = some job) (p : Phase → Bool) (phase : Phase) :
    (jobs.modify number fun j => { j with phase }).countP (p ·.phase)
        + (if p job.phase then 1 else 0)
      = jobs.countP (p ·.phase) + if p phase then 1 else 0 := by
  obtain ⟨before, after, hjobs, -, hmodify⟩ := exists_split h
  rw [hmodify, hjobs]
  simp only [List.countP_append, List.countP_cons]
  omega

/-! ## The invariant -/

/-- The phases of jobs that stand in one line: those behind `admitted` wait, and those between the
two marks are granted. -/
structure Marked (jobs : List Job) (begun admitted : Nat) : Prop where
  begun_le : begun ≤ admitted
  admitted_le : admitted ≤ jobs.length
  waiting : ∀ (number : Nat) (job : Job), jobs[number]? = some job →
    (job.phase = .waiting ↔ admitted ≤ number)
  granted : ∀ (number : Nat) (job : Job), jobs[number]? = some job →
    (job.phase = .granted ↔ begun ≤ number ∧ number < admitted)

/-- A job moves on to a phase, and the marks move past it where the phase asks for that. -/
theorem Marked.modify {jobs : List Job} {begun admitted begun' admitted' number : Nat}
    {phase : Phase} (h : Marked jobs begun admitted) (begun_le : begun' ≤ admitted')
    (admitted_le : admitted' ≤ jobs.length)
    (waiting : phase = .waiting ↔ admitted' ≤ number)
    (granted : phase = .granted ↔ begun' ≤ number ∧ number < admitted')
    (others : ∀ i, i ≠ number → (admitted' ≤ i ↔ admitted ≤ i) ∧ (begun' ≤ i ↔ begun ≤ i)) :
    Marked (jobs.modify number fun j => { j with phase }) begun' admitted' where
  begun_le := begun_le
  admitted_le := by rw [List.length_modify]; exact admitted_le
  waiting := by
    intro i job hi
    -- the job itself is in its new phase, and no other changes sides
    rcases getElem?_modify_cases hi with ⟨rfl, old, -, rfl⟩ | ⟨hne, hi⟩
    · exact waiting
    · rw [h.waiting i job hi, (others i hne).1]
  granted := by
    intro i job hi
    rcases getElem?_modify_cases hi with ⟨rfl, old, -, rfl⟩ | ⟨hne, hi⟩
    · exact granted
    · obtain ⟨hadmitted, hbegun⟩ := others i hne
      rw [h.granted i job hi, hbegun]
      omega

theorem Marked.append {jobs : List Job} {begun admitted admitted' : Nat} {job : Job}
    (h : Marked jobs begun admitted) (le : admitted ≤ admitted')
    (admitted_le : admitted' ≤ jobs.length + 1)
    (waiting : job.phase = .waiting ↔ admitted' ≤ jobs.length)
    (granted : job.phase = .granted ↔ jobs.length < admitted')
    (others : ∀ i, i < jobs.length → (admitted' ≤ i ↔ admitted ≤ i)) :
    Marked (jobs ++ [job]) begun admitted' where
  begun_le := Nat.le_trans h.begun_le le
  admitted_le := by rw [List.length_append]; exact admitted_le
  waiting := by
    intro i other hi
    -- the jobs that were there keep their side of the mark
    rcases getElem?_concat_cases hi with ⟨hlt, hi⟩ | ⟨rfl, rfl⟩
    · rw [h.waiting i other hi, others i hlt]
    · exact waiting
  granted := by
    intro i other hi
    have hbegun : begun ≤ jobs.length := Nat.le_trans h.begun_le h.admitted_le
    rcases getElem?_concat_cases hi with ⟨hlt, hi⟩ | ⟨rfl, rfl⟩
    · have hsame := others i hlt
      rw [h.granted i other hi]
      omega
    · -- the new job stands behind all that have begun
      rw [granted]
      exact ⟨fun hlt => ⟨hbegun, hlt⟩, fun hplace => hplace.2⟩

namespace State

variable {s t u : State}

/-- The line of jobs: see the head of this file. `spare` slots are on their way from one job to the
next: a job has given them up and no other has got them yet. -/
structure InLine (capacity spare : Nat) (s : State) (begun admitted : Nat) : Prop where
  marked : Marked s.jobs begun admitted
  /-- The semaphore's waiters are the jobs that have not been admitted. -/
  waiters : s.slots.waiters = List.range' admitted (s.jobs.length - admitted)
  /-- The starts in the queue are those of the jobs that have been admitted and not begun. -/
  starts : s.queue.filterMap Work.start? = List.range' begun (admitted - begun)
  /-- The queue holds exactly the work that the phases ask for. -/
  queued : (s.queue.filter (·.job?.isSome)).Perm (duties s.jobs)
  held : s.slots.held = s.jobs.countP (·.phase.holds) + spare
  held_le : s.slots.held ≤ capacity
  /-- Nobody waits while a slot is free. -/
  busy : s.slots.waiters ≠ [] → s.slots.held = capacity
  capacity_eq : s.slots.capacity = capacity

variable {capacity spare begun admitted : Nat}

theorem InLine.congr (h : InLine capacity spare s begun admitted) (same : SameLine s t) :
    InLine capacity spare t begun admitted where
  marked := by rw [same.jobs]; exact h.marked
  waiters := by rw [same.jobs, same.slots]; exact h.waiters
  starts := by rw [same.queue]; exact h.starts
  queued := by rw [same.jobs, same.queue]; exact h.queued
  held := by rw [same.jobs, same.slots]; exact h.held
  held_le := by rw [same.slots]; exact h.held_le
  busy := by rw [same.slots]; exact h.busy
  capacity_eq := by rw [same.slots]; exact h.capacity_eq

theorem InLine.idle (positive : 0 < capacity) (clock : Number) (level : Log.Level) (shell : Shell) :
    InLine capacity 0 (State.idle (.idle capacity positive) clock level shell) 0 0 where
  marked := ⟨Nat.le_refl 0, Nat.le_refl 0, fun _ _ h => absurd h (by simp [State.idle]),
    fun _ _ h => absurd h (by simp [State.idle])⟩
  waiters := rfl
  starts := rfl
  queued := List.Perm.refl _
  held := rfl
  held_le := Nat.zero_le _
  busy := fun h => absurd rfl h
  capacity_eq := rfl

/-- Work that is about no job changes nothing in the line. -/
theorem InLine.conclusions (h : InLine capacity spare s begun admitted) {works : List Work}
    (jobs : t.jobs = s.jobs) (slots : t.slots = s.slots) (queue : t.queue = s.queue ++ works)
    (conclusions : ∀ work ∈ works, work.job? = none) : InLine capacity spare t begun admitted where
  marked := by rw [jobs]; exact h.marked
  waiters := by rw [jobs, slots]; exact h.waiters
  starts := by
    -- neither the starts nor the jobs in the queue are more than before
    have hnone : works.filterMap Work.start? = [] := by
      rw [List.filterMap_eq_nil_iff]
      intro work hwork
      have := conclusions work hwork
      cases work <;> first | rfl | exact absurd this (by simp [Work.job?])
    rw [queue, List.filterMap_append, hnone, List.append_nil]
    exact h.starts
  queued := by
    have hnone : works.filter (·.job?.isSome) = [] := by
      rw [List.filter_eq_nil_iff]
      intro work hwork
      rw [conclusions work hwork]
      simp
    rw [jobs, queue, List.filter_append, hnone, List.append_nil]
    exact h.queued
  held := by rw [jobs, slots]; exact h.held
  held_le := by rw [slots]; exact h.held_le
  busy := by rw [slots]; exact h.busy
  capacity_eq := by rw [slots]; exact h.capacity_eq

/-- Everything that a job's work in the queue says about the job. -/
theorem InLine.job_of_mem (h : InLine capacity spare s begun admitted) {work : Work} {number : Nat}
    (mem : work ∈ s.queue) (about : work.job? = some number) :
    ∃ job, s.jobs[number]? = some job ∧ job.phase.work? number = some work := by
  have hmem : work ∈ s.queue.filter (·.job?.isSome) := by
    rw [List.mem_filter, about]
    exact ⟨mem, rfl⟩
  obtain ⟨other, job, hjob, hwork⟩ := mem_duties.mp ((h.queued.mem_iff).mp hmem)
  -- the work that a job asks for is about that job
  obtain rfl := Option.some.inj (about.symm.trans (Phase.job?_of_work? hwork))
  exact ⟨job, hjob, hwork⟩

theorem filter_work? (number : Nat) (phase : Phase) :
    (phase.work? number).toList.filter (·.job?.isSome) = (phase.work? number).toList := by
  rw [List.filter_eq_self]
  intro work hwork
  rw [Phase.job?_of_work? (Option.mem_toList.mp hwork)]
  rfl

theorem filterMap_start?_work? {phase : Phase} (number : Nat) (h : phase ≠ .granted) :
    (phase.work? number).toList.filterMap Work.start? = [] := by
  cases phase <;> first | rfl | exact absurd rfl h

theorem InLine.lt_begun (h : InLine capacity spare s begun admitted) {number : Nat} {job : Job}
    (hj : s.jobs[number]? = some job) (begun_phase : job.phase.hasBegun = true) :
    number < begun := by
  have hwaiting : ¬ admitted ≤ number :=
    mt (h.marked.waiting number job hj).mpr (Phase.ne_waiting_of_hasBegun begun_phase)
  have hgranted : ¬ (begun ≤ number ∧ number < admitted) :=
    mt (h.marked.granted number job hj).mpr (Phase.ne_granted_of_hasBegun begun_phase)
  omega

/-- A job moves on to a phase. Its slot, the place of the marks and the waiters change as they have
to, and its old work, which was the first in the queue, gives way to the new one. -/
theorem InLine.move (h : InLine capacity spare s begun admitted)
    {spare' begun' admitted' number : Nat} {job : Job} {phase : Phase}
    (hj : s.jobs[number]? = some job) (jobs : t.jobs = s.jobs)
    (queue : s.queue = (job.phase.work? number).toList ++ t.queue)
    (held : t.slots.held = s.slots.held) (capacity_eq : t.slots.capacity = s.slots.capacity)
    (busy : t.slots.waiters ≠ [] → s.slots.waiters ≠ [])
    (waiters : t.slots.waiters = List.range' admitted' (s.jobs.length - admitted'))
    (marked : Marked (s.jobs.modify number fun j => { j with phase }) begun' admitted')
    (starts : (t.queue ++ (phase.work? number).toList).filterMap Work.start?
      = List.range' begun' (admitted' - begun'))
    (count : spare' + (if phase.holds then 1 else 0) = spare + if job.phase.holds then 1 else 0) :
    InLine capacity spare' (t.place number phase) begun' admitted' where
  marked := by
    change Marked (t.jobs.modify number fun j => { j with phase }) begun' admitted'
    rw [jobs]
    exact marked
  waiters := by
    change t.slots.waiters = List.range' admitted' ((t.jobs.modify number _).length - admitted')
    rw [List.length_modify, jobs]
    exact waiters
  starts := starts
  queued := by
    change ((t.queue ++ (phase.work? number).toList).filter (·.job?.isSome)).Perm
      (duties (t.jobs.modify number fun j => { j with phase }))
    -- the work of the old phase heads the queue before, that of the new one ends it now
    have hqueued := h.queued
    rw [queue, List.filter_append, filter_work?] at hqueued
    rw [List.filter_append, filter_work?, jobs]
    exact duties_modify hj phase hqueued
  held := by
    change t.slots.held
      = (t.jobs.modify number fun j => { j with phase }).countP (·.phase.holds) + spare'
    have hcount := countP_modify hj Phase.holds phase
    rw [held, jobs, h.held]
    omega
  held_le := by
    change t.slots.held ≤ capacity
    rw [held]
    exact h.held_le
  busy := by
    change t.slots.waiters ≠ [] → t.slots.held = capacity
    rw [held]
    exact fun hne => h.busy (busy hne)
  capacity_eq := capacity_eq.trans h.capacity_eq

/-- **A job that has begun moves on.** It keeps its slot, or gives it up. -/
theorem InLine.advance (h : InLine capacity spare s begun admitted) {spare' number : Nat}
    {job : Job} {phase : Phase} (hj : s.jobs[number]? = some job)
    (old_holds : job.phase.holds = true) (old_begun : job.phase.hasBegun = true)
    (new_begun : phase.hasBegun = true) (jobs : t.jobs = s.jobs) (slots : t.slots = s.slots)
    (queue : s.queue = (job.phase.work? number).toList ++ t.queue)
    (count : spare' + (if phase.holds then 1 else 0) = spare + 1) :
    InLine capacity spare' (t.place number phase) begun admitted := by
  have hlt : number < begun := h.lt_begun hj old_begun
  have hbegun := h.marked.begun_le
  have hwaiting : phase ≠ .waiting := Phase.ne_waiting_of_hasBegun new_begun
  have hgranted : phase ≠ .granted := Phase.ne_granted_of_hasBegun new_begun
  refine h.move hj jobs queue (by rw [slots]) (by rw [slots]) (by rw [slots]; exact id)
    (by rw [slots]; exact h.waiters) ?_ ?_ (by rw [if_pos old_holds]; exact count)
  · -- the job stands behind both marks, and stays there
    refine h.marked.modify hbegun h.marked.admitted_le ?_ ?_ (fun _ _ => ⟨Iff.rfl, Iff.rfl⟩)
    · exact ⟨fun hp => absurd hp hwaiting, fun hp => by omega⟩
    · exact ⟨fun hp => absurd hp hgranted, fun hp => by omega⟩
  · -- neither its old work nor its new one is a start
    have hold := filterMap_start?_work? number (Phase.ne_granted_of_hasBegun old_begun)
    have hstarts := h.starts
    rw [queue, List.filterMap_append, hold, List.nil_append] at hstarts
    rw [List.filterMap_append, filterMap_start?_work? number hgranted, List.append_nil]
    exact hstarts

/-- A start at the head of the queue is that of the first job that has not begun. -/
theorem InLine.start_head (h : InLine capacity spare s begun admitted) {number : Nat}
    {rest : List Work} (queue : s.queue = .start number :: rest) :
    number = begun ∧ begun < admitted ∧
      rest.filterMap Work.start? = List.range' (begun + 1) (admitted - (begun + 1)) := by
  have hstarts := h.starts
  rw [queue, List.filterMap_cons] at hstarts
  simp only [Work.start?] at hstarts
  -- a start in the queue is that of a job between the marks, so there is one
  have hlt : begun < admitted := by
    by_contra hle
    rw [show admitted - begun = 0 by omega] at hstarts
    exact absurd hstarts (by simp)
  rw [show admitted - begun = (admitted - (begun + 1)) + 1 by omega, List.range'_succ] at hstarts
  obtain ⟨hnumber, hrest⟩ := List.cons.inj hstarts
  exact ⟨hnumber, hlt, hrest⟩

/-- **A granted job starts**, and the mark of those that have begun moves past it. It keeps its
slot, or gives it up. -/
theorem InLine.begin (h : InLine capacity spare s begun admitted) {spare' number : Nat} {job : Job}
    {phase : Phase} (hj : s.jobs[number]? = some job) (old : job.phase = .granted)
    (new_begun : phase.hasBegun = true) (jobs : t.jobs = s.jobs) (slots : t.slots = s.slots)
    (queue : s.queue = .start number :: t.queue)
    (count : spare' + (if phase.holds then 1 else 0) = spare + 1) :
    InLine capacity spare' (t.place number phase) (begun + 1) admitted := by
  have hwaiting : phase ≠ .waiting := Phase.ne_waiting_of_hasBegun new_begun
  have hgranted : phase ≠ .granted := Phase.ne_granted_of_hasBegun new_begun
  -- the job that starts is the one at the mark
  obtain ⟨rfl, hlt, hstarts⟩ := h.start_head queue
  refine h.move hj jobs (by rw [queue, old]; rfl) (by rw [slots]) (by rw [slots])
    (by rw [slots]; exact id) (by rw [slots]; exact h.waiters) ?_ ?_
    (by rw [old]; exact count)
  · refine h.marked.modify hlt h.marked.admitted_le ?_ ?_ (fun i hi => ⟨Iff.rfl, by omega⟩)
    · exact ⟨fun hp => absurd hp hwaiting, fun hp => by omega⟩
    · exact ⟨fun hp => absurd hp hgranted, fun hp => by omega⟩
  · rw [List.filterMap_append, filterMap_start?_work? number hgranted, List.append_nil]
    exact hstarts

/-! ## The return of a slot -/

/-- The first waiter is the first job that has not been admitted. -/
theorem InLine.first_waiter (h : InLine capacity spare s begun admitted) {next : Nat}
    {others : List Nat} (waiters : s.slots.waiters = next :: others) :
    next = admitted ∧ admitted < s.jobs.length ∧
      others = List.range' (admitted + 1) (s.jobs.length - (admitted + 1)) := by
  have hwaiters := h.waiters
  -- somebody waits, so not all jobs have been admitted
  have hlt : admitted < s.jobs.length := by
    by_contra hle
    rw [waiters, show s.jobs.length - admitted = 0 by omega] at hwaiters
    exact absurd hwaiters (by simp)
  rw [waiters, show s.jobs.length - admitted = (s.jobs.length - (admitted + 1)) + 1 by omega,
    List.range'_succ] at hwaiters
  obtain ⟨hnext, hothers⟩ := List.cons.inj hwaiters
  exact ⟨hnext, hlt, hothers⟩

theorem InLine.job_of_waiter (h : InLine capacity spare s begun admitted) {next : Nat}
    {others : List Nat} (waiters : s.slots.waiters = next :: others) :
    ∃ job, s.jobs[next]? = some job ∧ job.phase = .waiting := by
  obtain ⟨rfl, hlt, -⟩ := h.first_waiter waiters
  have hnext : s.jobs[next]? = some s.jobs[next] := List.getElem?_eq_getElem hlt
  exact ⟨_, hnext, (h.marked.waiting next _ hnext).mpr (Nat.le_refl next)⟩

/-- A spare slot passes to the first waiter, and the mark of those that are admitted moves past
it. -/
theorem InLine.admit (h : InLine capacity (spare + 1) s begun admitted) {next : Nat}
    {others : List Nat} (waiters : s.slots.waiters = next :: others) :
    InLine capacity spare s.passOn begun (admitted + 1) := by
  obtain ⟨job, hnext, hphase⟩ := h.job_of_waiter waiters
  obtain ⟨rfl, hlt, hothers⟩ := h.first_waiter waiters
  have hbegun := h.marked.begun_le
  rw [passOn_of_waiting waiters]
  refine h.move hnext rfl (by rw [hphase]; rfl) rfl rfl (fun _ => by rw [waiters]; simp) hothers
    ?_ ?_ (by rw [hphase]; rfl)
  · -- the job at the second mark is granted, and the mark moves past it
    refine h.marked.modify (by omega) hlt ?_ ?_ (fun i hi => ⟨by omega, Iff.rfl⟩)
    · exact ⟨fun hp => absurd hp (by simp), fun hp => by omega⟩
    · exact ⟨fun _ => ⟨hbegun, Nat.lt_succ_self next⟩, fun _ => rfl⟩
  · -- its start goes behind the starts of those that were granted before
    change (s.queue ++ [Work.start next]).filterMap Work.start? = _
    rw [List.filterMap_append, h.starts, show next + 1 - begun = (next - begun) + 1 by omega,
      List.range'_1_concat, show begun + (next - begun) = next by omega]
    rfl

/-- A spare slot becomes free when nobody waits. -/
theorem InLine.free (h : InLine capacity (spare + 1) s begun admitted)
    (waiters : s.slots.waiters = []) : InLine capacity spare s.passOn begun admitted := by
  have hheld := h.held
  have hheld_le := h.held_le
  rw [passOn_of_idle waiters]
  refine ⟨h.marked, h.waiters, h.starts, h.queued, ?_, ?_, ?_, h.capacity_eq⟩
  · change s.slots.held - 1 = s.jobs.countP (·.phase.holds) + spare
    omega
  · change s.slots.held - 1 ≤ capacity
    omega
  · exact fun hne => absurd waiters hne

theorem InLine.passOn (h : InLine capacity (spare + 1) s begun admitted) :
    ∃ admitted', InLine capacity spare s.passOn begun admitted' := by
  cases hw : s.slots.waiters with
  | nil => exact ⟨admitted, h.free hw⟩
  | cons next others => exact ⟨admitted + 1, h.admit hw⟩

/-! ## Submissions -/

theorem submitJob_of_open (h : s.slots.isOpen = true) (job : Job) :
    s.submitJob job =
      { s with
        slots := { s.slots with held := s.slots.held + 1 },
        jobs := s.jobs ++ [{ job with phase := .granted }],
        queue := s.queue ++ [.start s.jobs.length] } := by
  unfold submitJob Semaphore.acquire Semaphore.tryAcquire?
  rw [if_pos h]
  rfl

theorem submitJob_of_closed (h : s.slots.isOpen = false) (job : Job) :
    s.submitJob job =
      { s with
        slots := { s.slots with waiters := s.slots.waiters ++ [s.jobs.length] },
        jobs := s.jobs ++ [{ job with phase := .waiting }] } := by
  unfold submitJob Semaphore.acquire Semaphore.tryAcquire?
  rw [if_neg (by rw [h]; simp)]

/-- A job that finds a free slot, and nobody waiting, is admitted at once. -/
theorem InLine.submit_open (h : InLine capacity spare s begun admitted)
    (hopen : s.slots.isOpen = true) (job : Job) :
    InLine capacity spare (s.submitJob job) begun (admitted + 1) := by
  have hfree : s.slots.held < s.slots.capacity ∧ s.slots.waiters = [] := by
    unfold Semaphore.isOpen at hopen
    simpa using hopen
  -- nobody waits, so the second mark stands behind the last job
  have hlength := congrArg List.length h.waiters
  rw [List.length_range', hfree.2, List.length_nil] at hlength
  have hadmitted := h.marked.admitted_le
  have hbegun := h.marked.begun_le
  obtain rfl : admitted = s.jobs.length := by omega
  rw [submitJob_of_open hopen]
  refine ⟨?_, ?_, ?_, ?_, ?_, ?_, ?_, h.capacity_eq⟩
  · refine h.marked.append (Nat.le_succ _) (Nat.le_refl _) ?_ ?_ (fun i hi => by omega)
    · exact ⟨fun hp => absurd hp (by simp), fun hp => by omega⟩
    · exact ⟨fun _ => Nat.lt_succ_self _, fun _ => rfl⟩
  · change s.slots.waiters = _
    rw [hfree.2, List.length_append, List.length_singleton, Nat.sub_self]
    rfl
  · change (s.queue ++ [Work.start s.jobs.length]).filterMap Work.start? = _
    rw [List.filterMap_append, h.starts,
      show s.jobs.length + 1 - begun = (s.jobs.length - begun) + 1 by omega,
      List.range'_1_concat, show begun + (s.jobs.length - begun) = s.jobs.length by omega]
    rfl
  · change ((s.queue ++ [Work.start s.jobs.length]).filter _).Perm (duties (s.jobs ++ [_]))
    rw [duties_append, List.filter_append]
    exact h.queued.append_right _
  · change s.slots.held + 1 = (s.jobs ++ [_]).countP _ + spare
    rw [List.countP_append, h.held]
    change _ = s.jobs.countP (·.phase.holds) + 1 + spare
    omega
  · change s.slots.held + 1 ≤ capacity
    rw [← h.capacity_eq]
    exact hfree.1
  · exact fun hne => absurd hfree.2 hne

/-- Any other job waits behind all others, and all slots are held. -/
theorem InLine.submit_closed (h : InLine capacity spare s begun admitted)
    (hclosed : s.slots.isOpen = false) (job : Job) :
    InLine capacity spare (s.submitJob job) begun admitted := by
  have hadmitted := h.marked.admitted_le
  rw [submitJob_of_closed hclosed]
  refine ⟨?_, ?_, h.starts, ?_, ?_, h.held_le, ?_, h.capacity_eq⟩
  · refine h.marked.append (Nat.le_refl _) (by omega) ?_ ?_ (fun _ _ => Iff.rfl)
    · exact ⟨fun _ => hadmitted, fun _ => rfl⟩
    · exact ⟨fun hp => absurd hp (by simp), fun hp => by omega⟩
  · -- the newcomer is the last of those that wait
    change s.slots.waiters ++ [s.jobs.length] = _
    rw [h.waiters, List.length_append, List.length_singleton,
      show s.jobs.length + 1 - admitted = (s.jobs.length - admitted) + 1 by omega,
      List.range'_1_concat, show admitted + (s.jobs.length - admitted) = s.jobs.length by omega]
  · change (s.queue.filter _).Perm (duties (s.jobs ++ [_]))
    rw [duties_append]
    exact h.queued.trans (.of_eq (List.append_nil _).symm)
  · change s.slots.held = (s.jobs ++ [_]).countP _ + spare
    rw [List.countP_append, h.held]
    rfl
  · intro _
    -- a closed semaphore without waiters has all its slots held
    change s.slots.held = capacity
    by_cases hw : s.slots.waiters = []
    · have hheld : s.slots.capacity ≤ s.slots.held := by
        unfold Semaphore.isOpen at hclosed
        simpa [hw] using hclosed
      rw [h.capacity_eq] at hheld
      exact Nat.le_antisymm h.held_le hheld
    · exact h.busy hw

/-- **A job joins the line.** -/
theorem InLine.submitJob (h : InLine capacity spare s begun admitted) (job : Job) :
    ∃ admitted', InLine capacity spare (s.submitJob job) begun admitted' := by
  cases hopen : s.slots.isOpen with
  | true => exact ⟨admitted + 1, h.submit_open hopen job⟩
  | false => exact ⟨admitted, h.submit_closed hopen job⟩

end State

end BoundedJobs
