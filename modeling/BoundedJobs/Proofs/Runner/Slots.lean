import BoundedJobs.Proofs.Runner.Moves

/-!
# Slots

What the line of jobs says about slots, at every moment and for every way in which jobs end:

* `bodies_add_granted_le_active` — there are never more bodies in progress than slots held, nor more
  slots held than the capacity. A job that is about to enter its body has its slot already;
* `slots_of_quiet` — whenever no work is left, the slots are held by the jobs that were submitted
  first among those that have not settled, as many as fit; the others wait. No slot is lost, and
  none is given back twice.
-/

namespace BoundedJobs

/-- Whether the body of a job has been entered and has not settled. -/
def Phase.isRunning : Phase → Bool
  | running _ => true
  | _ => false

/-- Whether a job holds a slot and has not entered its body. -/
def Phase.isGranted : Phase → Bool
  | granted => true
  | _ => false

namespace State

variable {s : State} {capacity spare begun admitted : Nat}

/-- The jobs in a phase with a property, in the order in which they were submitted. -/
def jobsIn (s : State) (p : Phase → Bool) : List Nat :=
  (s.jobs.zipIdx.filter (p ·.1.phase)).map (·.2)

/-- The jobs whose bodies are in progress. -/
def bodies (s : State) : List Nat := s.jobsIn Phase.isRunning

/-- The jobs that have not settled. -/
def unsettled (s : State) : List Nat := s.jobsIn (!·.isFinished)

theorem mem_jobsIn {p : Phase → Bool} {i : Nat} :
    i ∈ s.jobsIn p ↔ ∃ job, s.jobs[i]? = some job ∧ p job.phase = true := by
  unfold jobsIn
  rw [List.mem_map]
  constructor
  · rintro ⟨⟨job, number⟩, hmem, rfl⟩
    obtain ⟨hentry, hphase⟩ := List.mem_filter.mp hmem
    exact ⟨job, List.mk_mem_zipIdx_iff_getElem?.mp hentry, hphase⟩
  · rintro ⟨job, hj, hphase⟩
    have hentry := List.mk_mem_zipIdx_iff_getElem?.mpr hj
    exact ⟨(job, i), List.mem_filter.mpr ⟨hentry, hphase⟩, rfl⟩

theorem length_jobsIn (s : State) (p : Phase → Bool) :
    (s.jobsIn p).length = s.jobs.countP (p ·.phase) := by
  have hcomp : s.jobs.zipIdx.countP (p ·.1.phase)
      = (s.jobs.zipIdx.map Prod.fst).countP (p ·.phase) := by
    rw [List.countP_map]
    rfl
  unfold jobsIn
  rw [List.length_map, ← List.countP_eq_length_filter, hcomp, List.zipIdx_map_fst]

/-! ## At every moment -/

/-- Bodies in progress and bodies about to be entered have different slots. -/
theorem InLine.bodies_add_granted_le (h : InLine capacity spare s begun admitted) :
    s.bodies.length + (s.jobsIn Phase.isGranted).length ≤ s.slots.held := by
  have hholds : s.jobs.countP (·.phase.isRunning) + s.jobs.countP (·.phase.isGranted)
      ≤ s.jobs.countP (·.phase.holds) := by
    induction s.jobs with
    | nil => exact Nat.le_refl _
    | cons job jobs ih =>
      -- no phase is both, and each of the two holds a slot
      have hone : (if job.phase.isRunning then 1 else 0) + (if job.phase.isGranted then 1 else 0)
          ≤ if job.phase.holds then 1 else 0 := by
        cases job.phase <;> simp [Phase.isRunning, Phase.isGranted, Phase.holds]
      rw [List.countP_cons, List.countP_cons, List.countP_cons]
      omega
  unfold bodies
  rw [length_jobsIn, length_jobsIn, h.held]
  exact Nat.le_add_right_of_le hholds

/-- **The cap is never exceeded.** Whatever has happened to a runner, the bodies in progress are no
more than the slots held, and those are no more than the capacity. The slots of jobs that are about
to enter their bodies are counted beside, so that entering a body leaves the bound intact. -/
theorem bodies_add_granted_le_active (positive : 0 < capacity) (clock : Number) (level : Log.Level)
    (shell : Shell) (moves : List Move) :
    let s := (fresh positive clock level shell).after moves
    s.bodies.length + (s.jobsIn Phase.isGranted).length ≤ s.active ∧ s.active ≤ capacity := by
  intro s
  obtain ⟨begun, admitted, h⟩ := inLine_after positive clock level shell moves
  exact ⟨h.bodies_add_granted_le, h.held_le⟩

/-- Two direct calls that share one slot. The first has entered its body, and the second waits. -/
def twoCalls : List Move :=
  [.arrive (.call "a" (.manual none) false), .arrive (.call "b" (.manual none) false), .tick]

theorem bodies_add_granted_le_active_twoCalls :
    let s := (fresh Nat.one_pos 0 .info []).after twoCalls
    s.bodies = [0] ∧
      s.bodies.length + (s.jobsIn Phase.isGranted).length ≤ s.active ∧ s.active ≤ 1 := by
  refine ⟨?_, bodies_add_granted_le_active Nat.one_pos 0 .info [] twoCalls⟩
  rfl

/-! ## When no work is left -/

/-- Without work in the queue every job waits, is running or is finished. -/
theorem InLine.work?_of_quiet (h : InLine capacity spare s begun admitted) (quiet : s.queue = [])
    {number : Nat} {job : Job} (hj : s.jobs[number]? = some job) :
    job.phase.work? number = none := by
  have hduties : duties s.jobs = [] := by
    have hqueued := h.queued
    rw [quiet] at hqueued
    exact (List.nil_perm.mp hqueued)
  cases hw : job.phase.work? number with
  | none => rfl
  | some work =>
    have hmem : work ∈ duties s.jobs := mem_duties.mpr ⟨number, job, hj, hw⟩
    rw [hduties] at hmem
    exact absurd hmem List.not_mem_nil

/-- Without work in the queue, the jobs that have not settled are those with bodies in progress, and
behind them those that wait. -/
theorem InLine.unsettled_of_quiet (h : InLine capacity spare s begun admitted)
    (quiet : s.queue = []) : s.unsettled = s.bodies ++ s.slots.waiters := by
  have hsplit : s.jobs.zipIdx
      = (s.jobs.take admitted).zipIdx ++ (s.jobs.drop admitted).zipIdx admitted := by
    have hlength : (s.jobs.take admitted).length = admitted := by
      rw [List.length_take, Nat.min_eq_left h.marked.admitted_le]
    have happend : (s.jobs.take admitted ++ s.jobs.drop admitted).zipIdx
        = (s.jobs.take admitted).zipIdx
          ++ (s.jobs.drop admitted).zipIdx (0 + (s.jobs.take admitted).length) :=
      List.zipIdx_append
    rwa [List.take_append_drop, hlength, Nat.zero_add] at happend
  -- those that have been admitted are running or finished
  have hfront : ∀ entry ∈ (s.jobs.take admitted).zipIdx,
      (!entry.1.phase.isFinished) = entry.1.phase.isRunning := by
    rintro ⟨job, number⟩ hmem
    have hget := List.mk_mem_zipIdx_iff_getElem?.mp hmem
    obtain ⟨hlt, -⟩ := List.getElem?_eq_some_iff.mp hget
    rw [List.length_take] at hlt
    rw [List.getElem?_take_of_lt (by omega)] at hget
    have hwork := h.work?_of_quiet quiet hget
    have hwaiting := h.marked.waiting number job hget
    cases hp : job.phase with
    | waiting => exact absurd (hwaiting.mp hp) (by omega)
    | running | finished => rfl
    | granted | settled | leaving => rw [hp] at hwork; exact absurd hwork (by simp [Phase.work?])
  -- and all others wait
  have hback : ∀ entry ∈ (s.jobs.drop admitted).zipIdx admitted, entry.1.phase = .waiting := by
    rintro ⟨job, number⟩ hmem
    obtain ⟨hle, hget⟩ := List.mk_mem_zipIdx_iff_le_and_getElem?_sub.mp hmem
    rw [List.getElem?_drop, Nat.add_sub_cancel' hle] at hget
    exact (h.marked.waiting number job hget).mpr hle
  have hwaiters : ((s.jobs.drop admitted).zipIdx admitted).filter (!·.1.phase.isFinished)
      = (s.jobs.drop admitted).zipIdx admitted := by
    rw [List.filter_eq_self]
    intro entry hentry
    rw [hback entry hentry]
    rfl
  have hnone : ((s.jobs.drop admitted).zipIdx admitted).filter (·.1.phase.isRunning) = [] := by
    rw [List.filter_eq_nil_iff]
    intro entry hentry
    rw [hback entry hentry]
    exact Bool.noConfusion
  unfold unsettled bodies jobsIn
  rw [hsplit, List.filter_append, List.filter_append, hwaiters, hnone, List.append_nil,
    List.map_append, List.filter_congr hfront, List.zipIdx_map_snd, List.length_drop, h.waiters]

/-- Without work in the queue, the slots held are those of the bodies in progress. -/
theorem InLine.held_of_quiet (h : InLine capacity 0 s begun admitted) (quiet : s.queue = []) :
    s.slots.held = s.bodies.length := by
  unfold bodies
  rw [length_jobsIn, h.held, Nat.add_zero]
  -- the other phases that hold a slot have work in the queue
  refine List.countP_congr fun job hmem => ?_
  obtain ⟨number, hget⟩ := List.getElem?_of_mem hmem
  have hwork := h.work?_of_quiet quiet hget
  cases hp : job.phase with
  | waiting | running | finished => exact Iff.rfl
  | granted | settled | leaving => rw [hp] at hwork; exact absurd hwork (by simp [Phase.work?])

/-- **Work and slots are conserved.** Whatever has happened to a runner, once no work is left its
slots are in use as far as there are jobs for them, by the jobs that were submitted first among
those that have not settled. When all jobs have settled, all slots are free and nobody waits. -/
theorem slots_of_quiet (positive : 0 < capacity) (clock : Number) (level : Log.Level)
    (shell : Shell) (moves : List Move)
    (quiet : ((fresh positive clock level shell).after moves).queue = []) :
    let s := (fresh positive clock level shell).after moves
    let inUse := min capacity s.unsettled.length
    s.active = inUse ∧ s.pending = s.unsettled.length - inUse ∧
      s.bodies = s.unsettled.take inUse ∧
      (s.unsettled = [] → s.active = 0 ∧ s.pending = 0) := by
  intro s inUse
  obtain ⟨begun, admitted, h⟩ := inLine_after positive clock level shell moves
  have hunsettled : s.unsettled = s.bodies ++ s.slots.waiters := h.unsettled_of_quiet quiet
  have hheld : s.slots.held = s.bodies.length := h.held_of_quiet quiet
  have hlength : s.unsettled.length = s.bodies.length + s.slots.waiters.length := by
    rw [hunsettled, List.length_append]
  have hheld_le : s.slots.held ≤ capacity := h.held_le
  have hinUse : s.bodies.length = inUse := by
    -- either nobody waits, or all slots are held
    by_cases hwaiters : s.slots.waiters = []
    · have : s.slots.waiters.length = 0 := by rw [hwaiters]; rfl
      omega
    · have : s.slots.held = capacity := h.busy hwaiters
      omega
  refine ⟨hheld.trans hinUse, ?_, ?_, ?_⟩
  · change s.slots.waiters.length = _
    omega
  · rw [← hinUse, hunsettled, List.take_left]
  · intro hnone
    change s.slots.held = 0 ∧ s.slots.waiters.length = 0
    rw [hnone, List.length_nil] at hlength
    omega

theorem slots_of_quiet_twoCalls :
    let s := (fresh Nat.one_pos 0 .info []).after twoCalls
    s.queue = [] ∧ s.unsettled = [0, 1] ∧ s.active = 1 ∧ s.pending = 1 ∧ s.bodies = [0] := by
  have quiet : ((fresh Nat.one_pos 0 .info []).after twoCalls).queue = [] := rfl
  have unsettled : ((fresh Nat.one_pos 0 .info []).after twoCalls).unsettled = [0, 1] := rfl
  obtain ⟨active, pending, bodies, -⟩ := slots_of_quiet Nat.one_pos 0 .info [] twoCalls quiet
  rw [unsettled] at active pending bodies
  exact ⟨quiet, unsettled, active, pending, bodies⟩

end State

end BoundedJobs
