import Mathlib.Data.List.Perm.Basic

/-!
# Greedy schedules

Tasks of given durations are placed on a number of slots, one after another in their order, each on
the slot that becomes free first. All slots are free at first.

* `Schedule.slots` — when the slots become free after tasks have been placed on them;
* `Schedule.start`, `Schedule.finish` — when a task starts and when it has finished;
* `Schedule.makespan` — when all tasks have finished;
* `Schedule.order` — the tasks in the order in which they finish, those that finish at the same time
  in their own order;
* `Schedule.Progress` — the same schedule seen as time goes by: some tasks are running, some are
  done. A task starts whenever a slot is free (`Progress.begin`), and otherwise time moves on to the
  moment at which the first of the running tasks finishes (`Progress.elapse`).

Slots are told apart by nothing but the time at which they become free, so only the collection of
these times matters (`earliest_of_perm`). As long as tasks are left to start, the slots that are not
in use are free now, and the others will be when the running tasks have finished: that is the
invariant which ties the two views together (`Progress.free`).
-/

namespace BoundedJobs

namespace Schedule

variable {capacity : Nat} {durations free : List Nat} {place now : Nat}

/-! ## Slots -/

/-- The earliest of some times. -/
def earliest (free : List Nat) : Nat := free.min?.getD 0

/-- A task is placed on the slot that becomes free first. -/
def assign (free : List Nat) (duration : Nat) : List Nat :=
  (earliest free + duration) :: free.erase (earliest free)

/-- When slots become free after tasks have been placed on them in their order. -/
def slots (capacity : Nat) (durations : List Nat) : List Nat :=
  durations.foldl assign (List.replicate capacity 0)

/-- When the task at a place starts: the slot that becomes free first takes it. -/
def start (capacity : Nat) (durations : List Nat) (place : Nat) : Nat :=
  earliest (slots capacity (durations.take place))

/-- When the task at a place has finished. -/
def finish (capacity : Nat) (durations : List Nat) (place : Nat) : Nat :=
  start capacity durations place + (durations[place]?).getD 0

/-- When all tasks have finished. -/
def makespan (capacity : Nat) (durations : List Nat) : Nat :=
  ((List.range durations.length).map (finish capacity durations)).max?.getD 0

theorem earliest_eq (mem : now ∈ free) (le : ∀ time ∈ free, now ≤ time) : earliest free = now := by
  have hmin : free.min? = some now := List.min?_eq_some_iff.mpr ⟨mem, le⟩
  unfold earliest
  rw [hmin]
  rfl

theorem earliest_of_perm {other : List Nat} (h : free.Perm other) :
    earliest free = earliest other := by
  cases hmin : other.min? with
  | none =>
    obtain rfl : other = [] := List.min?_eq_none_iff.mp hmin
    rw [List.perm_nil.mp h]
  | some time =>
    obtain ⟨hmem, hle⟩ := List.min?_eq_some_iff.mp hmin
    rw [earliest_eq hmem hle]
    exact earliest_eq (h.mem_iff.mpr hmem) fun t ht => hle t (h.mem_iff.mp ht)

/-- One more task is placed. -/
theorem slots_take_succ (lt : place < durations.length) :
    slots capacity (durations.take (place + 1))
      = assign (slots capacity (durations.take place)) durations[place] := by
  unfold slots
  rw [List.take_succ_eq_append_getElem lt, List.foldl_append]
  rfl

theorem finish_eq (lt : place < durations.length) :
    finish capacity durations place = start capacity durations place + durations[place] := by
  unfold finish
  rw [List.getElem?_eq_getElem lt]
  rfl

/-- When the slots that are free become so now, and all others later, the next task starts now, and
the slot that takes it is free again when the task has finished. -/
theorem start_of_free {busy : List Nat} {spare : Nat} (lt : place < durations.length)
    (free : (slots capacity (durations.take place)).Perm (busy ++ List.replicate (spare + 1) now))
    (due : ∀ time ∈ busy, now ≤ time) :
    start capacity durations place = now ∧
      (slots capacity (durations.take (place + 1))).Perm
        (busy ++ [finish capacity durations place] ++ List.replicate spare now) := by
  have hmem : now ∈ busy ++ List.replicate (spare + 1) now :=
    List.mem_append_right _ (List.mem_replicate.mpr ⟨Nat.succ_ne_zero _, rfl⟩)
  have hstart : start capacity durations place = now := by
    refine (earliest_of_perm free).trans (earliest_eq hmem fun time htime => ?_)
    rcases List.mem_append.mp htime with hbusy | hspare
    · exact due time hbusy
    · exact Nat.le_of_eq (List.mem_replicate.mp hspare).2.symm
  refine ⟨hstart, ?_⟩
  -- one of the times that are now gives way to the end of the task
  rw [slots_take_succ lt, finish_eq lt, hstart]
  have hearliest : earliest (slots capacity (durations.take place)) = now := hstart
  unfold assign
  rw [hearliest]
  have hrest : ((slots capacity (durations.take place)).erase now).Perm
      (busy ++ List.replicate spare now) := by
    refine List.Perm.cons_inv (a := now) ?_
    refine (List.perm_cons_erase (free.mem_iff.mpr hmem)).symm.trans (free.trans ?_)
    exact List.perm_middle
  refine (hrest.cons _).trans ?_
  rw [List.append_assoc]
  exact List.perm_middle.symm

/-! ## The end -/

/-- Every task has finished by the end. -/
theorem finish_le_makespan (lt : place < durations.length) :
    finish capacity durations place ≤ makespan capacity durations := by
  have hmem : finish capacity durations place
      ∈ (List.range durations.length).map (finish capacity durations) :=
    List.mem_map_of_mem (List.mem_range.mpr lt)
  unfold makespan
  cases hmax : ((List.range durations.length).map (finish capacity durations)).max? with
  | none =>
    rw [List.max?_eq_none_iff.mp hmax] at hmem
    exact absurd hmem List.not_mem_nil
  | some time => exact (List.max?_eq_some_iff.mp hmax).2 _ hmem

/-- The end comes when the last task has finished, or at once without tasks. -/
theorem makespan_le {bound : Nat}
    (h : ∀ place, place < durations.length → finish capacity durations place ≤ bound) :
    makespan capacity durations ≤ bound := by
  unfold makespan
  cases hmax : ((List.range durations.length).map (finish capacity durations)).max? with
  | none => exact Nat.zero_le _
  | some time =>
    obtain ⟨place, hplace, rfl⟩ := List.mem_map.mp (List.max?_eq_some_iff.mp hmax).1
    exact h place (List.mem_range.mp hplace)

/-! ## The order in which tasks finish -/

/-- Whether the first task finishes no later than the second, and stands before it if they finish at
the same time. -/
def endsFirst (capacity : Nat) (durations : List Nat) (first second : Nat) : Bool :=
  finish capacity durations first < finish capacity durations second ||
    finish capacity durations first == finish capacity durations second && first ≤ second

theorem endsFirst_iff {first second : Nat} :
    endsFirst capacity durations first second = true ↔
      finish capacity durations first < finish capacity durations second ∨
        finish capacity durations first = finish capacity durations second ∧ first ≤ second := by
  simp [endsFirst]

/-- The tasks in the order in which they finish. -/
def order (capacity : Nat) (durations : List Nat) : List Nat :=
  (List.range durations.length).mergeSort (endsFirst capacity durations)

/-- A list of all tasks in which each finishes before those behind it is the one in their order. -/
theorem eq_order {l : List Nat} (perm : l.Perm (List.range durations.length))
    (sorted : l.Pairwise fun first second => endsFirst capacity durations first second = true) :
    l = order capacity durations := by
  have hsorted : (order capacity durations).Pairwise fun first second =>
      endsFirst capacity durations first second = true := by
    refine List.pairwise_mergeSort (fun a b c => ?_) (fun a b => ?_) _
    · rw [endsFirst_iff, endsFirst_iff, endsFirst_iff]
      omega
    · rw [Bool.or_eq_true, endsFirst_iff, endsFirst_iff]
      omega
  -- two tasks that each finish no later than the other are one task
  refine List.Perm.eq_of_pairwise (fun a b _ _ hab hba => ?_) sorted hsorted
    (perm.trans (List.mergeSort_perm _ _).symm)
  rw [endsFirst_iff] at hab hba
  omega

/-! ## The schedule as time goes by -/

/-- What has happened up to some time: the first `begun` tasks have started, and each of them is
running or done. -/
structure Progress (capacity : Nat) (durations : List Nat) (begun now : Nat)
    (running done : List Nat) : Prop where
  perm : (running ++ done).Perm (List.range begun)
  ascending : running.Pairwise (· < ·)
  /-- The tasks that are done are in the order in which they finished. -/
  sorted : done.Pairwise fun first second => endsFirst capacity durations first second = true
  parted : ∀ first ∈ done, ∀ second ∈ running, endsFirst capacity durations first second = true
  due : ∀ place ∈ running, now ≤ finish capacity durations place
  past : ∀ place ∈ done, finish capacity durations place ≤ now
  /-- It is the beginning, or a task has just finished. -/
  reached : now = 0 ∨ ∃ place ∈ done, finish capacity durations place = now
  /-- The slots that are not in use are free now, as long as there are tasks left to start. -/
  free : begun < durations.length → (slots capacity (durations.take begun)).Perm
    (running.map (finish capacity durations) ++ List.replicate (capacity - running.length) now)

namespace Progress

variable {begun : Nat} {running done : List Nat}

theorem zero (capacity : Nat) (durations : List Nat) : Progress capacity durations 0 0 [] [] where
  perm := List.Perm.refl _
  ascending := List.Pairwise.nil
  sorted := List.Pairwise.nil
  parted := fun _ h => absurd h List.not_mem_nil
  due := fun _ h => absurd h List.not_mem_nil
  past := fun _ h => absurd h List.not_mem_nil
  reached := Or.inl rfl
  free := fun _ => List.Perm.refl _

theorem lt_begun (h : Progress capacity durations begun now running done)
    (mem : place ∈ running ∨ place ∈ done) : place < begun :=
  List.mem_range.mp (h.perm.mem_iff.mp (List.mem_append.mpr mem))

theorem not_mem_done (h : Progress capacity durations begun now running done)
    (mem : place ∈ running) : place ∉ done := by
  have hnodup : (running ++ done).Nodup := h.perm.nodup_iff.mpr List.nodup_range
  exact fun hdone => (List.nodup_append.mp hnodup).2.2 place mem place hdone rfl

theorem length_eq (h : Progress capacity durations begun now running done) :
    running.length + done.length = begun := by
  have hlength := h.perm.length_eq
  rwa [List.length_append, List.length_range] at hlength

theorem now_le (h : Progress capacity durations begun now running done)
    (le : begun ≤ durations.length) : now ≤ makespan capacity durations := by
  rcases h.reached with rfl | ⟨place, hplace, rfl⟩
  · exact Nat.zero_le _
  · exact finish_le_makespan (Nat.lt_of_lt_of_le (h.lt_begun (Or.inr hplace)) le)

/-- **A task starts** now if a slot is free. -/
theorem begin (h : Progress capacity durations begun now running done)
    (lt : begun < durations.length) (spare : running.length < capacity) :
    start capacity durations begun = now ∧
      Progress capacity durations (begun + 1) now (running ++ [begun]) done := by
  have hfree := h.free lt
  -- there is a free slot, so `now` is among the earliest free times
  obtain ⟨left, hleft⟩ : ∃ left, capacity - running.length = left + 1 :=
    Nat.exists_eq_add_of_lt (by omega : 0 < capacity - running.length) |>.imp fun _ h => by omega
  rw [hleft] at hfree
  obtain ⟨hstart, hnext⟩ := start_of_free lt hfree fun time htime => by
    obtain ⟨place, hplace, rfl⟩ := List.mem_map.mp htime
    exact h.due place hplace
  have hfinish : now ≤ finish capacity durations begun := by
    rw [finish_eq lt, hstart]
    exact Nat.le_add_right _ _
  refine ⟨hstart, ?_⟩
  -- the fields that speak of the running tasks get one more to speak of
  refine ⟨?_, ?_, h.sorted, ?_, ?_, h.past, h.reached, fun _ => ?_⟩
  · rw [List.range_succ, List.append_assoc]
    exact (List.perm_append_comm.append_left running).trans
      (List.append_assoc running done [begun] ▸ h.perm.append_right [begun])
  · -- the task that starts is behind all that have begun
    refine List.pairwise_append.mpr ⟨h.ascending, List.pairwise_singleton _ _, ?_⟩
    intro place hplace other hother
    rw [List.mem_singleton.mp hother]
    exact h.lt_begun (Or.inl hplace)
  · intro first hfirst second hsecond
    rcases List.mem_append.mp hsecond with hrunning | hnew
    · exact h.parted first hfirst second hrunning
    · -- what is done has finished by now, and stands before the task that starts
      rw [List.mem_singleton.mp hnew, endsFirst_iff]
      have hpast := h.past first hfirst
      have hlt := h.lt_begun (Or.inr hfirst)
      omega
  · intro place hplace
    rcases List.mem_append.mp hplace with hrunning | hnew
    · exact h.due place hrunning
    · rw [List.mem_singleton.mp hnew]
      exact hfinish
  · -- the slot that takes the task is free no more, until the task has finished
    rw [List.map_append, List.length_append, List.length_singleton,
      show capacity - (running.length + 1) = left by omega]
    exact hnext

/-- The first of the running tasks to finish, and in front of those that finish with it, ends before
all others that are running. -/
theorem endsFirst_of_first (h : Progress capacity durations begun now running done) {i : Nat}
    (hi : running[i]? = some place)
    (first : ∀ (j other : Nat), running[j]? = some other →
      finish capacity durations place ≤ finish capacity durations other ∧
        (j < i → finish capacity durations place < finish capacity durations other))
    {other : Nat} (hother : other ∈ running.eraseIdx i) :
    endsFirst capacity durations place other = true := by
  rw [endsFirst_iff]
  obtain ⟨hlt, hget⟩ := List.getElem?_eq_some_iff.mp hi
  obtain ⟨j, hne, hj⟩ := List.mem_eraseIdx_iff_getElem?.mp hother
  obtain ⟨hle, hbefore⟩ := first j other hj
  rcases Nat.lt_or_gt_of_ne hne with hlow | hhigh
  · exact Or.inl (hbefore hlow)
  · obtain ⟨hj', hother'⟩ := List.getElem?_eq_some_iff.mp hj
    -- of those that finish together the one in front ends first
    have hasc := List.pairwise_iff_getElem.mp h.ascending i j hlt hj' hhigh
    rw [hget, hother'] at hasc
    omega

/-- When all slots are in use, the slot of a task that finishes is the only free one. -/
theorem free_of_full (h : Progress capacity durations begun now running done) {others : List Nat}
    (perm : (place :: others).Perm running) (left : begun < durations.length)
    (full : running.length = capacity) :
    (slots capacity (durations.take begun)).Perm
      (others.map (finish capacity durations)
        ++ List.replicate (capacity - others.length) (finish capacity durations place)) := by
  have hlength := perm.length_eq
  rw [List.length_cons] at hlength
  have hfree := h.free left
  rw [show capacity - running.length = 0 by omega, List.replicate_zero, List.append_nil] at hfree
  rw [show capacity - others.length = 1 by omega]
  refine hfree.trans ((perm.map _).symm.trans ?_)
  rw [List.map_cons]
  exact (List.perm_append_singleton _ _).symm

/-- **Time moves on** to the moment at which the first of the running tasks finishes. Tasks are left
to start only if all slots are in use. -/
theorem elapse (h : Progress capacity durations begun now running done) {i : Nat}
    (hi : running[i]? = some place)
    (first : ∀ (j other : Nat), running[j]? = some other →
      finish capacity durations place ≤ finish capacity durations other ∧
        (j < i → finish capacity durations place < finish capacity durations other))
    (full : begun < durations.length → running.length = capacity) :
    Progress capacity durations begun (finish capacity durations place) (running.eraseIdx i)
      (done ++ [place]) := by
  obtain ⟨hlt, hget⟩ := List.getElem?_eq_some_iff.mp hi
  -- the place leaves those that run and joins those that are done
  have hperm : (place :: running.eraseIdx i).Perm running := by
    rw [← hget]
    exact List.getElem_cons_eraseIdx_perm hlt
  have hmem : place ∈ running := List.mem_of_getElem? hi
  have hrest : ∀ other ∈ running.eraseIdx i, other ∈ running :=
    fun other hother => List.mem_of_mem_eraseIdx hother
  -- nothing that runs finishes earlier than the place
  have hdue : ∀ other ∈ running,
      finish capacity durations place ≤ finish capacity durations other := by
    intro other hother
    obtain ⟨j, hj⟩ := List.getElem?_of_mem hother
    exact (first j other hj).1
  refine ⟨?_, ?_, ?_, ?_, ?_, ?_, Or.inr ⟨place, ?_, rfl⟩, fun hleft => ?_⟩
  · -- the task is done and runs no more
    refine List.Perm.trans ?_ h.perm
    refine List.Perm.trans ?_ (hperm.append_right done)
    rw [← List.append_assoc]
    exact List.perm_append_singleton _ _
  · -- what is left of the running ones keeps its order
    exact h.ascending.sublist (List.eraseIdx_sublist ..)
  · -- it is the last one done: whatever was done before ends before it
    refine List.pairwise_append.mpr ⟨h.sorted, List.pairwise_singleton _ _, ?_⟩
    intro earlier hearlier other hother
    rw [List.mem_singleton.mp hother]
    exact h.parted earlier hearlier place hmem
  · intro earlier hearlier other hother
    rcases List.mem_append.mp hearlier with hdone | hnew
    · exact h.parted earlier hdone other (hrest other hother)
    · rw [List.mem_singleton.mp hnew]
      exact h.endsFirst_of_first hi first hother
  · -- the time has come to its end, and to no later one
    exact fun other hother => hdue other (hrest other hother)
  · intro other hother
    rcases List.mem_append.mp hother with hdone | hnew
    · exact Nat.le_trans (h.past other hdone) (h.due place hmem)
    · exact Nat.le_of_eq (congrArg _ (List.mem_singleton.mp hnew))
  · exact List.mem_append_right _ (List.mem_singleton_self _)
  · exact h.free_of_full hperm hleft (full hleft)

/-- When all tasks are done, they are so in their order, and it is the end of the schedule. -/
theorem finished (h : Progress capacity durations durations.length now [] done) :
    done = order capacity durations ∧ now = makespan capacity durations := by
  have hperm : done.Perm (List.range durations.length) := h.perm
  -- it is no later than the end, and all tasks have finished by now
  refine ⟨eq_order hperm h.sorted, Nat.le_antisymm (h.now_le (Nat.le_refl _)) ?_⟩
  exact makespan_le fun place hlt => h.past place (hperm.mem_iff.mpr (List.mem_range.mpr hlt))

end Progress

end Schedule

end BoundedJobs
