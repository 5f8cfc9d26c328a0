import BoundedJobs.Proofs.Schedule
import Mathlib.Algebra.Order.BigOperators.Group.List
import Mathlib.Algebra.Order.Ring.Nat
import Mathlib.Data.List.Induction
import Mathlib.Tactic.Ring

/-!
# How long a greedy schedule takes

A greedy schedule takes at least as long as its longest task, and at least as long as it would take
if the tasks could be spread evenly over the slots. It takes hardly longer: before the task that
finishes last has started, no slot has been idle, so all that time has been spent on other tasks.

* `Schedule.sum_slots` — the times at which the slots become free add up to the durations of the
  tasks, since every task is placed on a slot right behind the tasks that it already has;
* `Schedule.mul_start_le` — a task starts on the slot that becomes free first, so no slot has become
  free before;
* `Schedule.longest_le_makespan`, `Schedule.sum_le_makespan` — the bounds from below;
* `Schedule.makespan_mul_le` — the bound from above.
-/

namespace BoundedJobs

namespace Schedule

variable {capacity : Nat} {durations free : List Nat} {place now : Nat}

/-! ## The slot that becomes free first -/

theorem earliest_mem (h : free ≠ []) : earliest free ∈ free := by
  obtain ⟨time, hmin⟩ := Option.ne_none_iff_exists'.mp (mt List.min?_eq_none_iff.mp h)
  unfold earliest
  rw [hmin]
  exact (List.min?_eq_some_iff.mp hmin).1

theorem earliest_le (h : now ∈ free) : earliest free ≤ now := by
  obtain ⟨time, hmin⟩ :=
    Option.ne_none_iff_exists'.mp (mt List.min?_eq_none_iff.mp (List.ne_nil_of_mem h))
  unfold earliest
  rw [hmin]
  exact (List.min?_eq_some_iff.mp hmin).2 now h

theorem length_assign (h : free ≠ []) (duration : Nat) :
    (assign free duration).length = free.length := by
  have hpos := List.length_pos_of_ne_nil h
  unfold assign
  rw [List.length_cons, List.length_erase_of_mem (earliest_mem h)]
  omega

/-- A task is placed right behind those that its slot already has. -/
theorem sum_assign (h : free ≠ []) (duration : Nat) :
    (assign free duration).sum = free.sum + duration := by
  have hsum := List.sum_erase (earliest_mem h)
  unfold assign
  rw [List.sum_cons]
  omega

/-! ## All slots -/

theorem slots_concat (durations : List Nat) (duration : Nat) :
    slots capacity (durations ++ [duration]) = assign (slots capacity durations) duration := by
  unfold slots
  rw [List.foldl_append]
  rfl

theorem length_slots (positive : 0 < capacity) (durations : List Nat) :
    (slots capacity durations).length = capacity := by
  induction durations using List.reverseRecOn with
  | nil => exact List.length_replicate
  | append_singleton durations duration ih =>
    rw [slots_concat, length_assign, ih]
    exact List.ne_nil_of_length_pos (by omega)

theorem slots_ne_nil (positive : 0 < capacity) (durations : List Nat) :
    slots capacity durations ≠ [] :=
  List.ne_nil_of_length_pos (by rwa [length_slots positive])

theorem sum_slots (positive : 0 < capacity) (durations : List Nat) :
    (slots capacity durations).sum = durations.sum := by
  induction durations using List.reverseRecOn with
  | nil => simp [slots]
  | append_singleton durations duration ih =>
    rw [slots_concat, sum_assign (slots_ne_nil positive _), ih, List.sum_append,
      List.sum_singleton]

/-- When a task starts, no slot has become free before. -/
theorem mul_start_le (positive : 0 < capacity) (durations : List Nat) (place : Nat) :
    capacity * start capacity durations place ≤ (durations.take place).sum := by
  have hle := List.card_nsmul_le_sum (slots capacity (durations.take place))
    (start capacity durations place) fun _ htime => earliest_le htime
  rw [length_slots positive, sum_slots positive] at hle
  exact hle

/-- A slot is free from the start, or becomes so when a task has finished. -/
theorem mem_slots_take (le : place ≤ durations.length)
    (mem : now ∈ slots capacity (durations.take place)) :
    now = 0 ∨ ∃ earlier, earlier < place ∧ now = finish capacity durations earlier := by
  induction place with
  | zero =>
    rw [List.take_zero] at mem
    exact Or.inl (List.mem_replicate.mp mem).2
  | succ place ih =>
    rw [slots_take_succ le] at mem
    -- the slot of the task becomes free when the task has finished, the others are as before
    rcases List.mem_cons.mp mem with rfl | hrest
    · exact Or.inr ⟨place, Nat.lt_succ_self _, (finish_eq le).symm⟩
    · rcases ih (Nat.le_of_succ_le le) (List.mem_of_mem_erase hrest) with
        hzero | ⟨earlier, hlt, heq⟩
      · exact Or.inl hzero
      · exact Or.inr ⟨earlier, Nat.lt_succ_of_lt hlt, heq⟩

theorem slots_le_makespan (mem : now ∈ slots capacity durations) :
    now ≤ makespan capacity durations := by
  rw [← List.take_length (l := durations)] at mem
  rcases mem_slots_take (Nat.le_refl _) mem with rfl | ⟨place, hlt, rfl⟩
  · exact Nat.zero_le _
  · exact finish_le_makespan hlt

/-! ## The end -/

/-- The duration of the longest task, or zero without tasks. -/
def longest (durations : List Nat) : Nat := durations.max?.getD 0

theorem le_longest {duration : Nat} (mem : duration ∈ durations) :
    duration ≤ longest durations := by
  obtain ⟨time, hmax⟩ :=
    Option.ne_none_iff_exists'.mp (mt List.max?_eq_none_iff.mp (List.ne_nil_of_mem mem))
  unfold longest
  rw [hmax]
  exact (List.max?_eq_some_iff.mp hmax).2 duration mem

theorem longest_le {bound : Nat} (h : ∀ duration ∈ durations, duration ≤ bound) :
    longest durations ≤ bound := by
  unfold longest
  cases hmax : durations.max? with
  | none => exact Nat.zero_le _
  | some time => exact h time (List.max?_eq_some_iff.mp hmax).1

/-- The end comes with the end of some task, or at once without tasks. -/
theorem makespan_eq (capacity : Nat) (durations : List Nat) :
    makespan capacity durations = 0 ∨
      ∃ place, place < durations.length ∧
        makespan capacity durations = finish capacity durations place := by
  unfold makespan
  cases hmax : ((List.range durations.length).map (finish capacity durations)).max? with
  | none => exact Or.inl rfl
  | some time =>
    obtain ⟨place, hplace, rfl⟩ := List.mem_map.mp (List.max?_eq_some_iff.mp hmax).1
    exact Or.inr ⟨place, List.mem_range.mp hplace, rfl⟩

theorem longest_le_makespan (capacity : Nat) (durations : List Nat) :
    longest durations ≤ makespan capacity durations := by
  refine longest_le ?_
  intro duration hmem
  obtain ⟨place, hlt, rfl⟩ := List.getElem_of_mem hmem
  calc durations[place]
      ≤ start capacity durations place + durations[place] := Nat.le_add_left _ _
    _ = finish capacity durations place := (finish_eq hlt).symm
    _ ≤ makespan capacity durations := finish_le_makespan hlt

theorem sum_le_makespan (positive : 0 < capacity) (durations : List Nat) :
    durations.sum ≤ capacity * makespan capacity durations := by
  have hle := List.sum_le_card_nsmul (slots capacity durations) (makespan capacity durations)
    fun _ htime => slots_le_makespan htime
  rw [length_slots positive, sum_slots positive] at hle
  exact hle

/-- A task and those that stand before it take no longer than all tasks. -/
theorem sum_take_add_le (lt : place < durations.length) :
    (durations.take place).sum + durations[place] ≤ durations.sum := by
  rw [← List.sum_take_succ durations place lt]
  exact (List.take_sublist _ _).sum_le_sum fun _ _ => Nat.zero_le _

/-- **The greedy bound**: the slots are idle no longer than all but one of them would be during the
longest task. -/
theorem makespan_mul_le (positive : 0 < capacity) (durations : List Nat) :
    capacity * makespan capacity durations
      ≤ durations.sum + (capacity - 1) * longest durations := by
  obtain ⟨others, rfl⟩ : ∃ others, capacity = others + 1 := ⟨capacity - 1, by omega⟩
  rcases makespan_eq (others + 1) durations with hzero | ⟨place, hlt, hlast⟩
  · rw [hzero]
    exact Nat.zero_le _
  · rw [hlast, finish_eq hlt, Nat.add_sub_cancel]
    -- no slot is idle until the last task starts, and then it takes its own time on one of them
    calc (others + 1) * (start (others + 1) durations place + durations[place])
        = (others + 1) * start (others + 1) durations place + durations[place]
            + others * durations[place] := by ring
      _ ≤ (durations.take place).sum + durations[place] + others * durations[place] :=
          Nat.add_le_add_right (Nat.add_le_add_right (mul_start_le positive durations place) _) _
      _ ≤ durations.sum + others * longest durations :=
          Nat.add_le_add (sum_take_add_le hlt)
            (Nat.mul_le_mul_left _ (le_longest (List.getElem_mem hlt)))

end Schedule

end BoundedJobs
