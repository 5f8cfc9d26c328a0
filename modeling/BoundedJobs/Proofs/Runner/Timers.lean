import BoundedJobs.Proofs.Number
import BoundedJobs.Proofs.Runner.Dated

/-!
# Tasks that end by a timer

What happens to a task that takes some time and then ends by itself, in equations: all that changes
in the state while the clock shows a date, the events apart.

* `start_of_timed` — the task starts: it is running, and its timer is made;
* `fire_of_running`, `ticks_of_fired` — its timer fires: after two pieces of work the task is
  finished, and its slot has passed on;
* `nextTimer?_eq` — the timer that fires first is the one that is due first, and of those that are
  due at the same time the one that was made first;
* `InLine.drain_eq`, `InLine.drain_after` — work is done until none is left, which is at one moment
  only.
-/

namespace BoundedJobs

namespace State

variable {s t : State} {number run place : Nat} {job : Job} {times : Times} {ending : Ending}
  {capacity begun admitted : Nat}

/-! ## Work until none is left -/

theorem ticks_of_quiet (quiet : s.queue = []) (n : Nat) :
    s.after (List.replicate n .tick) = s := by
  induction n with
  | zero => rfl
  | succ n ih =>
    change s.tick.after (List.replicate n .tick) = s
    rw [tick_of_quiet quiet]
    exact ih

/-- Whoever counts the pieces of work until none is left gets the same state. -/
theorem InLine.drain_eq (h : InLine capacity 0 s begun admitted) {n : Nat}
    (quiet : (s.after (List.replicate n .tick)).queue = []) :
    s.drain = s.after (List.replicate n .tick) := by
  obtain ⟨m, hm⟩ := drainWithin_eq_after s.effort s
  have hdrained : (s.after (List.replicate m .tick)).queue = [] := hm ▸ h.queue_drain
  refine hm.trans ?_
  -- the work that is done after the first of the two counts is none
  rcases Nat.le_total m n with hle | hle
  · obtain ⟨k, rfl⟩ := Nat.exists_eq_add_of_le hle
    rw [← List.replicate_append_replicate, after_append, ticks_of_quiet hdrained]
  · obtain ⟨k, rfl⟩ := Nat.exists_eq_add_of_le hle
    rw [← List.replicate_append_replicate, after_append, ticks_of_quiet quiet]

/-- Work that is done already is part of the work that is done until none is left. -/
theorem InLine.drain_after (h : InLine capacity 0 s begun admitted) (n : Nat) :
    s.drain = (s.after (List.replicate n .tick)).drain := by
  obtain ⟨begun', admitted', hafter⟩ := h.after (List.replicate n .tick)
  obtain ⟨m, hm⟩ := drainWithin_eq_after _ (s.after (List.replicate n .tick))
  have hdrain : (s.after (List.replicate n .tick)).drain
      = s.after (List.replicate (n + m) .tick) := by
    refine Eq.trans hm ?_
    rw [← List.replicate_append_replicate, after_append]
  rw [hdrain]
  exact h.drain_eq (hdrain ▸ hafter.queue_drain)

/-! ## The start -/

/-- A job that takes some time starts: it is running, and its timer is made. -/
theorem start_of_timed (dated : s.Dated) (unlagged : s.lags = []) {delay : Number}
    {onAbort : Option Ending}
    (hj : s.jobs[number]? = some job) (granted : job.phase = .granted)
    (body : job.body = .timed delay ending onAbort)
    (unheeded : s.isAborted job = true → onAbort = none) :
    ∃ events, s.start number =
      { s with
        jobs := s.jobs.modify number fun j =>
          { j with phase := .running { waited := s.clock - job.submitted, started := s.clock } }
        timers := s.timers ++ [{ due := s.clock + delay, alarm := .settle number ending }]
        events } := by
  obtain ⟨events, hstart⟩ := start_of_dated dated hj granted
  have hlooked := looked_of_unlagged unlagged job
  -- on a clock that stands still, both looks at the start read the same
  have htimes : s.timesOf job = { waited := s.clock - job.submitted, started := s.clock } := by
    unfold timesOf
    rw [hlooked, look_of_unlagged unlagged]
  refine ⟨events ++ [s.entry number job], ?_⟩
  rw [hstart, hlooked, htimes]
  unfold enter
  simp only [body]
  have haborted : ({ s with events } : State).isAborted job = s.isAborted job := rfl
  rw [haborted]
  cases h : s.isAborted job with
  -- an aborted run does not end this body before its time
  | true =>
    rw [unheeded h]
    simp only [entry, h]
    rfl
  | false =>
    simp only [entry, h]
    rfl

/-! ## The end -/

theorem modify_setPhase (jobs : List Job) (number : Nat) (first second : Phase) :
    (jobs.modify number fun j => { j with phase := first }).modify number
        (fun j => { j with phase := second })
      = jobs.modify number fun j => { j with phase := second } := by
  rw [List.modify_modify_eq]
  rfl

/-- The timer of a running task fires. -/
theorem fire_of_running {due : Number}
    (timer : s.timers[place]? = some { due, alarm := .settle number ending })
    (hj : s.jobs[number]? = some job) (running : job.phase = .running times)
    (task : job.run? = some run) :
    s.fire place =
      ({ s with clock := s.clock.max due, timers := s.timers.eraseIdx place } : State).place number
        (.settled times ending.effective) := by
  have htask : job.run? ≠ none := by simp [task]
  have hended := ended_of_run? htask times ending.effective
  unfold fire
  rw [timer, ← hended]
  exact settleJob_eq (s := { s with
    clock := s.clock.max due
    timers := s.timers.eraseIdx place }) hj running ending

/-- A task that has settled comes to its outcome. -/
theorem finish_of_dated (dated : s.Dated) (unlagged : s.lags = []) (hj : s.jobs[number]? = some job)
    (settled : job.phase = .settled times ending) (task : job.run? = some run) :
    ∃ events, s.finish number =
      ({ s.noteMessage run ending with events } : State).place number
        (.leaving (.outcome (s.outcomeOf job times ending))) := by
  obtain ⟨events, hwrap⟩ := wrapUpTask_of_dated dated number run job times ending
  rw [look_of_unlagged unlagged] at hwrap
  refine ⟨events, ?_⟩
  unfold finish
  simp only [hj, settled]
  unfold wrapUp
  rw [task]
  exact hwrap

/-- The return of a slot brings the conclusion of the run if that is complete by then. -/
theorem reportBack_outcome (task : job.run? = some run) (outcome : Outcome) :
    s.reportBack job (.outcome outcome) =
      { s with queue := s.queue ++ if s.isComplete run then [.conclude run] else [] } := by
  have hblamed : s.blamed job (.outcome outcome) = s := by
    unfold blamed
    rw [task]
  rw [reportBack_eq, hblamed]
  unfold closing
  rw [task]

/-- The end of a task that has settled is noted. -/
theorem tick_of_settled (dated : s.Dated) (unlagged : s.lags = []) (quiet : s.queue = [])
    (hj : s.jobs[number]? = some job) (task : job.run? = some run) (times : Times)
    (ending : Ending) :
    ∃ events, (s.place number (.settled times ending)).tick =
      { s.noteMessage run ending with
        jobs := s.jobs.modify number fun j =>
          { j with phase := .leaving (.outcome (s.outcomeOf job times ending)) }
        queue := [.release number]
        events } := by
  have hqueue : (s.place number (.settled times ending)).queue = [.finish number] := by
    change s.queue ++ [.finish number] = _
    rw [quiet]
    rfl
  have hsettled : (s.place number (.settled times ending)).jobs[number]?
      = some { job with phase := .settled times ending } := by
    change (s.jobs.modify number _)[number]? = _
    rw [List.getElem?_modify_eq, hj]
    rfl
  -- the end is the only work, so the tick is this and nothing else
  obtain ⟨events, hfinish⟩ := finish_of_dated
    (s := { s.place number (.settled times ending) with queue := [] }) (dated.congr ⟨rfl, rfl⟩)
    unlagged hsettled rfl task
  refine ⟨events, ?_⟩
  rw [tick_of_queue hqueue]
  refine hfinish.trans ?_
  change ({ s.noteMessage run ending with
    jobs := (s.jobs.modify number fun j =>
      { j with phase := .settled times ending }).modify number
        fun j => { j with phase := .leaving (.outcome (s.outcomeOf job times ending)) }
    queue := [.release number]
    events } : State) = _
  rw [modify_setPhase]

/-- A task with an outcome is finished, and its slot passes on. -/
theorem tick_of_leaving {outcome : Outcome} (queue : s.queue = [.release number])
    (hj : s.jobs[number]? = some job) (leaving : job.phase = .leaving (.outcome outcome))
    (task : job.run? = some run) :
    s.tick =
      let passed :=
        (({ s with queue := [] } : State).setPhase number (.finished (.outcome outcome))).passOn
      { passed with
        queue := passed.queue ++ if passed.isComplete run then [.conclude run] else [] } := by
  have htick : s.tick = ({ s with queue := [] } : State).release number := tick_of_queue queue
  rw [htick, release_eq (s := { s with queue := [] }) hj leaving, reportBack_outcome task]

/-- A task whose timer has fired is finished after two pieces of work, and its slot has passed
on. -/
theorem ticks_of_fired (dated : s.Dated) (unlagged : s.lags = []) (quiet : s.queue = [])
    (hj : s.jobs[number]? = some job) (task : job.run? = some run) (times : Times)
    (ending : Ending) :
    let outcome := s.outcomeOf job times ending
    ∃ events, (s.place number (.settled times ending)).after (List.replicate 2 .tick) =
      let passed :=
        ({ s.noteMessage run ending with
          jobs := s.jobs.modify number fun j => { j with phase := .finished (.outcome outcome) }
          events } : State).passOn
      { passed with
        queue := passed.queue ++ if passed.isComplete run then [.conclude run] else [] } := by
  intro outcome
  obtain ⟨events, hfirst⟩ := tick_of_settled dated unlagged quiet hj task times ending
  refine ⟨events, ?_⟩
  change (s.place number (.settled times ending)).tick.tick = _
  rw [hfirst]
  have hleaving : (s.jobs.modify number fun j =>
        { j with phase := .leaving (.outcome outcome) })[number]?
      = some { job with phase := .leaving (.outcome outcome) } := by
    rw [List.getElem?_modify_eq, hj]
    rfl
  refine (tick_of_leaving (s := { s.noteMessage run ending with
      jobs := s.jobs.modify number fun j => { j with phase := .leaving (.outcome outcome) }
      queue := [.release number]
      events }) rfl hleaving rfl task).trans ?_
  -- only the last of the two phases is left
  have hjobs : (({ s.noteMessage run ending with
        jobs := s.jobs.modify number fun j => { j with phase := .leaving (.outcome outcome) }
        queue := []
        events } : State).setPhase number (.finished (.outcome outcome)))
      = { s.noteMessage run ending with
        jobs := s.jobs.modify number fun j => { j with phase := .finished (.outcome outcome) }
        events } := by
    change ({ s.noteMessage run ending with
      jobs := (s.jobs.modify number fun j =>
        { j with phase := .leaving (.outcome outcome) }).modify number
          fun j => { j with phase := .finished (.outcome outcome) }
      queue := []
      events } : State) = _
    rw [modify_setPhase, ← quiet]
    rfl
  rw [hjobs]

/-! ## The next timer -/

/-- Of two timers the one that is due first, or that was made first if both are due together. -/
def sooner (best : Option (Timer × Nat)) (candidate : Timer × Nat) : Option (Timer × Nat) :=
  match best with
  | some first => if Number.lt candidate.1.due first.1.due then some candidate else best
  | none => some candidate

/-- All that stand in a list with one more at its end. -/
theorem forall_getElem?_concat {α : Type} {l : List α} {a : α} {P : Nat → α → Prop}
    (front : ∀ i b, l[i]? = some b → P i b) (last : P l.length a) :
    ∀ i b, (l ++ [a])[i]? = some b → P i b := by
  intro i b h
  rcases Nat.lt_trichotomy i l.length with hlt | rfl | hgt
  · rw [List.getElem?_append_left hlt] at h
    exact front i b h
  · rw [List.getElem?_concat_length] at h
    exact Option.some.inj h ▸ last
  · have hlt := (List.getElem?_eq_some_iff.mp h).1
    rw [List.length_append, List.length_singleton] at hlt
    omega

theorem foldl_sooner {timers : List Timer} {dues : List Int}
    (h : timers.map (·.due) = dues.map .ofInt) (whole : ∀ due ∈ dues, Number.Whole due)
    (ne : timers ≠ []) :
    ∃ timer place due, timers.zipIdx.foldl sooner none = some (timer, place) ∧
      timer.due = .ofInt due ∧ dues[place]? = some due ∧
      ∀ (i : Nat) (other : Int), dues[i]? = some other →
        due ≤ other ∧ (i < place → due < other) := by
  induction timers using List.reverseRecOn generalizing dues with
  | nil => exact absurd rfl ne
  | append_singleton timers last ih =>
    rw [List.map_append, List.map_singleton] at h
    obtain ⟨front, back, rfl, hfront, hback⟩ := List.append_eq_map_iff.mp h
    obtain ⟨due, rfl, hdue⟩ := List.map_eq_singleton_iff.mp hback
    have hwhole : Number.Whole due :=
      whole due (List.mem_append_right _ (List.mem_singleton_self _))
    have hlength : front.length = timers.length := by
      simpa using congrArg List.length hfront
    rw [List.zipIdx_append, List.foldl_append, List.zipIdx_singleton, Nat.zero_add]
    change ∃ timer place due',
      sooner (timers.zipIdx.foldl sooner none) (last, timers.length) = _ ∧ _
    by_cases hnil : timers = []
    · -- there is only one timer
      subst hnil
      obtain rfl : front = [] := List.length_eq_zero_iff.mp hlength
      exact ⟨last, 0, due, rfl, hdue.symm, rfl,
        forall_getElem?_concat (by simp) ⟨Int.le_refl due, by simp⟩⟩
    · -- the best of those in front is compared with the last
      obtain ⟨timer, place, best, hfold, htimer, hplace, hbest⟩ :=
        ih hfront.symm (fun d hd => whole d (List.mem_append_left _ hd)) hnil
      have hlt : place < front.length := (List.getElem?_eq_some_iff.mp hplace).1
      have hbestWhole : Number.Whole best :=
        whole best (List.mem_append_left _ (List.mem_of_getElem? hplace))
      rw [hfold]
      unfold sooner
      simp only [htimer, ← hdue, hwhole.lt hbestWhole, decide_eq_true_eq]
      by_cases hsoon : due < best
      · refine ⟨last, timers.length, due, if_pos hsoon, hdue.symm, ?_,
          forall_getElem?_concat (fun i other hother => ?_) ?_⟩
        · rw [← hlength, List.getElem?_concat_length]
        · have := (hbest i other hother).1
          omega
        · omega
      · refine ⟨timer, place, best, if_neg hsoon, htimer, ?_, forall_getElem?_concat hbest ?_⟩
        · rw [List.getElem?_append_left hlt]
          exact hplace
        · omega

/-- The timer that fires first is the one that is due first, and of those that are due at the same
time the one that was made first. -/
theorem nextTimer?_eq (isDue : Number → Bool) {timers : List Timer} {dues : List Int}
    (h : timers.map (·.due) = dues.map .ofInt) (whole : ∀ due ∈ dues, Number.Whole due)
    (all : ∀ timer ∈ timers, isDue timer.due = true) (ne : timers ≠ []) :
    ∃ place due, nextTimer? isDue timers = some place ∧ dues[place]? = some due ∧
      ∀ (i : Nat) (other : Int), dues[i]? = some other →
        due ≤ other ∧ (i < place → due < other) := by
  have hall : timers.zipIdx.filter (fun entry => isDue entry.1.due) = timers.zipIdx := by
    rw [List.filter_eq_self]
    rintro ⟨timer, i⟩ hmem
    exact all timer (List.mem_of_getElem? (List.mk_mem_zipIdx_iff_getElem?.mp hmem))
  obtain ⟨timer, place, due, hfold, -, hplace, hbest⟩ := foldl_sooner h whole ne
  refine ⟨place, due, ?_, hplace, hbest⟩
  rw [← hall] at hfold
  exact congrArg (Option.map Prod.snd) hfold

end State

end BoundedJobs
