import BoundedJobs.Proofs.Runner.Moves
import Mathlib.Data.List.Induction

/-!
# The order of starts

Jobs start in the order in which they were submitted. The mark of the jobs that have begun moves
along the line one job at a time (`State.InLine.begin`), and the body of a job is entered, if at
all, when the mark moves past it.

* `asked_after` — the jobs are those that have been asked for, in that order: the calls one after
  another, and in each call its tasks;
* `State.started` — the jobs whose bodies have been entered, in the order in which that happened;
* `State.Barred` — a job's turn to start has come, but a log line about its start cannot be written;
* `start_order` — bodies are entered in the order of submission, and a body is passed over only when
  it is barred.
-/

namespace BoundedJobs

/-- The job whose body was entered, if an event says so. -/
def Event.entered? : Event → Option Nat
  | entered job .. => some job
  | _ => none

/-- What a job was asked to do: its label, its place among those asked for together, its body. -/
def Job.asked (job : Job) : String × Nat × Body := (job.label, job.place, job.body)

/-- What a move asks for, in the order of the tasks. -/
def Move.asked : Move → List (String × Nat × Body)
  | arrive (.settle request) =>
    request.tasks.zipIdx.map fun (task, place) => (request.label, place, task.body)
  | arrive (.call label body _) => [(label, 0, body)]
  | _ => []

namespace State

variable {s t : State} {capacity begun admitted number : Nat} {job : Job}

/-! ## Jobs are numbered in the order of submission -/

theorem asked_of_unphased (jobs : List Job) :
    (jobs.map Job.unphased).map Job.asked = jobs.map Job.asked := List.map_map

theorem asked_newcomers (s : State) (stimulus : Stimulus) :
    (s.newcomers stimulus).map Job.asked = (Move.arrive stimulus).asked := by
  cases stimulus with
  | settle request => exact List.map_map.trans rfl
  | call | finish | abort | report | setLevel | setClock | setLags | fire => rfl

theorem InLine.asked_move (h : InLine capacity 0 s begun admitted) (m : Move) :
    (s.move m).jobs.map Job.asked = s.jobs.map Job.asked ++ m.asked := by
  cases m with
  | arrive stimulus =>
    have hjobs := congrArg (List.map Job.asked) (receive_unphased s stimulus)
    rwa [asked_of_unphased, List.map_append, asked_of_unphased, asked_newcomers] at hjobs
  | tick =>
    have hjobs := congrArg (List.map Job.asked) h.ticked.unphased
    rw [asked_of_unphased, asked_of_unphased] at hjobs
    exact hjobs.trans (List.append_nil _).symm

/-- **The jobs are those that have been asked for**, in the order of the calls and in each call in
the order of its tasks. -/
theorem asked_after (positive : 0 < capacity) (clock : Number) (level : Log.Level) (shell : Shell)
    (moves : List Move) :
    ((fresh positive clock level shell).after moves).jobs.map Job.asked
      = moves.flatMap Move.asked := by
  induction moves using List.reverseRecOn with
  | nil => rfl
  | append_singleton moves m ih =>
    obtain ⟨begun, admitted, h⟩ := inLine_after positive clock level shell moves
    rw [after_concat, h.asked_move, ih, List.flatMap_append, List.flatMap_singleton]

/-! ## What is told about starts -/

/-- The jobs whose bodies have been entered, in the order in which that happened. -/
def started (s : State) : List Nat := s.events.filterMap Event.entered?

theorem started_congr (h : t.story = s.story) : t.started = s.started :=
  filterMap_events_congr (fun _ => rfl) h

theorem Beside.started {told : List Event} (h : Beside s t told) :
    t.started = s.started ++ told.filterMap Event.entered? := h.filterMap fun _ => rfl

theorem filterMap_entered?_greeting {told : List Event}
    (h : told = [] ∨ told = s.greeting number job) : told.filterMap Event.entered? = [] :=
  filterMap_greeting (fun _ _ _ => rfl) (fun _ _ _ => rfl) h

theorem Noted.started {times : Times} {ending : Ending} {result : Result}
    (h : Noted s number job times ending t result) : t.started = s.started := by
  cases h with
  | call => rfl
  | outcome _ beside =>
    rw [beside.started]
    unfold farewell
    rw [Hook.filterMap_told rfl, List.append_nil]
    rfl
  | crashed _ beside told_eq =>
    rw [beside.started]
    rcases told_eq with rfl | rfl
    · exact List.append_nil _
    · unfold farewell
      rw [Hook.filterMap_told rfl, List.append_nil]
      rfl

/-- A job that starts enters its body, unless it is barred. -/
theorem Opening.started {phase : Phase} (h : Opening s number job t phase) :
    t.started = s.started ∧ s.Bars job ∨ t.started = s.started ++ [number] := by
  have hentered : (s.greeting number job ++ [s.entry number job]).filterMap Event.entered?
      = [number] := by
    rw [List.filterMap_append, filterMap_entered?_greeting (Or.inr rfl)]
    rfl
  cases h with
  -- a log line or a hook has crashed before the body was entered
  | barred beside _ told_eq bars =>
    refine Or.inl ⟨?_, bars⟩
    rw [beside.started, filterMap_entered?_greeting told_eq, List.append_nil]
  | running _ beside =>
    right
    rw [started_congr (arm_story _ _ _), beside.started, hentered]
  | settled _ beside =>
    right
    rw [beside.started, hentered]
  | thrown _ beside _ noted =>
    right
    rw [noted.started, beside.started, hentered]

/-! ## Starts follow the mark -/

/-- It is the turn of a job to start, and a log line about its start cannot be written. -/
def Barred (s : State) (number : Nat) : Prop :=
  s.queue.head? = some (.start number) ∧ ∃ job, s.jobs[number]? = some job ∧ s.Bars job

/-- A job was barred at some moment during a sequence of moves. -/
def BarredWithin (origin : State) (moves : List Move) (number : Nat) : Prop :=
  ∃ before after, moves = before ++ .tick :: after ∧ (origin.after before).Barred number

theorem BarredWithin.append {origin : State} {moves : List Move}
    (h : BarredWithin origin moves number) (later : List Move) :
    BarredWithin origin (moves ++ later) number := by
  obtain ⟨before, after, rfl, hbarred⟩ := h
  exact ⟨before, after ++ later, by rw [List.append_assoc, List.cons_append], hbarred⟩

/-- The starts so far: they are in order, and of the jobs before the mark all have started but those
that are passed over. -/
structure Ordered (s : State) (begun : Nat) (passed : Nat → Prop) : Prop where
  increasing : s.started.Pairwise (· < ·)
  lt_begun : ∀ number ∈ s.started, number < begun
  passed : ∀ number, number < begun → number ∈ s.started ∨ passed number

theorem Ordered.congr {passed passed' : Nat → Prop} (h : Ordered s begun passed)
    (started : t.started = s.started) (mono : ∀ number, passed number → passed' number) :
    Ordered t begun passed' where
  increasing := by rw [started]; exact h.increasing
  lt_begun := by rw [started]; exact h.lt_begun
  passed := by
    intro number hlt
    rw [started]
    exact (h.passed number hlt).imp_right (mono number)

theorem Ordered.enter {passed passed' : Nat → Prop} (h : Ordered s begun passed)
    (started : t.started = s.started ++ [begun]) (mono : ∀ number, passed number → passed' number) :
    Ordered t (begun + 1) passed' where
  increasing := by
    -- all starts so far are of jobs before the mark
    rw [started, List.pairwise_append]
    refine ⟨h.increasing, List.pairwise_singleton _ _, ?_⟩
    intro number hnumber last hlast
    rw [List.mem_singleton.mp hlast]
    exact h.lt_begun number hnumber
  lt_begun := by
    intro number hnumber
    rw [started, List.mem_append, List.mem_singleton] at hnumber
    rcases hnumber with hnumber | rfl
    · exact Nat.lt_succ_of_lt (h.lt_begun number hnumber)
    · exact Nat.lt_succ_self number
  passed := by
    intro number hlt
    rw [started, List.mem_append, List.mem_singleton]
    rcases Nat.lt_succ_iff_lt_or_eq.mp hlt with hlt | rfl
    · exact (h.passed number hlt).imp Or.inl (mono number)
    · exact Or.inl (Or.inr rfl)

theorem Ordered.skip {passed passed' : Nat → Prop} (h : Ordered s begun passed)
    (started : t.started = s.started) (mono : ∀ number, passed number → passed' number)
    (skipped : passed' begun) : Ordered t (begun + 1) passed' where
  increasing := by rw [started]; exact h.increasing
  lt_begun := by
    intro number hnumber
    rw [started] at hnumber
    exact Nat.lt_succ_of_lt (h.lt_begun number hnumber)
  passed := by
    intro number hlt
    rw [started]
    rcases Nat.lt_succ_iff_lt_or_eq.mp hlt with hlt | rfl
    · exact (h.passed number hlt).imp_right (mono number)
    · exact Or.inr skipped

/-- Whether a job is barred does not depend on the work in the queue. -/
theorem bars_of_popped (h : s.popped.Bars job) : s.Bars job := by
  unfold Bars at h
  rw [look_popped] at h
  exact h

/-- A call whose function throws at once has entered its body. -/
theorem Bounced.started {value : Value} (h : Bounced s number job value t) :
    t.started = s.started ++ [number] := by
  rw [h.beside.started, List.filterMap_append, filterMap_entered?_greeting (Or.inr rfl)]
  rfl

/-- A tick moves the mark past a job that enters its body or is barred, or leaves both alone. -/
theorem InLine.ordered_tick {passed passed' : Nat → Prop} (h : InLine capacity 0 s begun admitted)
    (ordered : Ordered s begun passed) (mono : ∀ number, passed number → passed' number)
    (skip : ∀ number, s.Barred number → passed' number) :
    ∃ begun' admitted',
      InLine capacity 0 s.tick begun' admitted' ∧ Ordered s.tick begun' passed' := by
  have hticked := h.ticked
  generalize s.tick = t at hticked
  cases hticked with
  | quiet => exact ⟨begun, admitted, h, ordered.congr rfl mono⟩
  | started queue job_eq granted opening =>
    refine ⟨begun + 1, admitted, h.started queue job_eq granted opening, ?_⟩
    -- the job that starts is the one at the mark
    obtain ⟨rfl, -, -⟩ := h.start_head queue
    rcases opening.started with ⟨hstarted, hbars⟩ | hstarted
    · refine ordered.skip hstarted mono (skip _ ⟨?_, _, job_eq, bars_of_popped hbars⟩)
      rw [queue]
      rfl
    · exact ordered.enter hstarted mono
  | bounced queue job_eq granted bounced =>
    obtain ⟨admitted', hpassed⟩ := (h.gaveUp queue job_eq granted bounced _).passOn
    refine ⟨begun + 1, admitted', hpassed, ?_⟩
    obtain ⟨rfl, -, -⟩ := h.start_head queue
    exact ordered.enter ((started_congr (passOn_keeps _).2.2.1).trans bounced.started) mono
  | finished queue job_eq settled noted =>
    exact ⟨begun, admitted, h.finished queue job_eq settled noted,
      ordered.congr noted.started mono⟩
  | released queue job_eq leaving =>
    obtain ⟨admitted', hreleased⟩ := h.released queue job_eq leaving
    refine ⟨begun, admitted', hreleased, ordered.congr (started_congr ?_) mono⟩
    exact (reportBack_keeps _ _ _).2.1.trans (passOn_keeps _).2.2.1
  | concluded queue =>
    refine ⟨begun, admitted, h.concluded queue, ordered.congr (started_congr ?_) mono⟩
    exact (conclude_keeps _ _).1

theorem ordered_after (positive : 0 < capacity) (clock : Number) (level : Log.Level) (shell : Shell)
    (moves : List Move) :
    let origin := fresh positive clock level shell
    ∃ begun admitted, InLine capacity 0 (origin.after moves) begun admitted ∧
      Ordered (origin.after moves) begun (BarredWithin origin moves) := by
  intro origin
  -- the line and the starts are taken together, since both speak of the same mark
  induction moves using List.reverseRecOn with
  | nil =>
    refine ⟨0, 0, InLine.idle positive clock level shell, List.Pairwise.nil, ?_, ?_⟩
    · exact fun number hnumber => absurd hnumber List.not_mem_nil
    · exact fun number hlt => absurd hlt (Nat.not_lt_zero number)
  | append_singleton moves m ih =>
    obtain ⟨begun, admitted, h, ordered⟩ := ih
    have hmono : ∀ number, BarredWithin origin moves number →
        BarredWithin origin (moves ++ [m]) number := fun number hb => hb.append [m]
    rw [after_concat]
    cases m with
    | arrive stimulus =>
      obtain ⟨admitted', hnext⟩ := h.receive stimulus
      exact ⟨begun, admitted', hnext,
        ordered.congr (started_congr (receive_story _ stimulus)) hmono⟩
    | tick =>
      exact h.ordered_tick ordered hmono fun number hb => ⟨moves, [], rfl, hb⟩

/-! ## The order of starts -/

/-- In an increasing list, the smaller of two members stands before the greater one. -/
theorem pair_sublist {numbers : List Nat} (h : numbers.Pairwise (· < ·)) {first second : Nat}
    (lt : first < second) (hfirst : first ∈ numbers) (hsecond : second ∈ numbers) :
    [first, second].Sublist numbers := by
  obtain ⟨before, after, rfl⟩ := List.append_of_mem hsecond
  rw [List.pairwise_append] at h
  -- what stands behind the greater one is greater still
  have hbefore : first ∈ before := by
    rcases List.mem_append.mp hfirst with hmem | hmem
    · exact hmem
    · rcases List.mem_cons.mp hmem with rfl | hmem
      · exact absurd lt (Nat.lt_irrefl first)
      · have := (List.pairwise_cons.mp h.2.1).1 first hmem
        omega
  exact (List.singleton_sublist.mpr hbefore).append
    (List.singleton_sublist.mpr List.mem_cons_self)

/-- **Jobs start in the order in which they were submitted.** Jobs are numbered in the order of the
calls, and those of one call in the order of its tasks. When the body of a job has been entered, so
had been that of every job submitted earlier — unless the earlier job was barred when its turn came,
before the later one started. Then its body is never entered. -/
theorem start_order (positive : 0 < capacity) (clock : Number) (level : Log.Level) (shell : Shell)
    (moves : List Move) {first second : Nat} (lt : first < second)
    (entered : second ∈ ((fresh positive clock level shell).after moves).started) :
    let origin := fresh positive clock level shell
    let s := origin.after moves
    s.jobs.map Job.asked = moves.flatMap Move.asked ∧
      s.started.Pairwise (· < ·) ∧
      ([first, second].Sublist s.started ∨
        first ∉ s.started ∧ ∃ before after, moves = before ++ .tick :: after ∧
          (origin.after before).Barred first ∧ second ∉ (origin.after before).started) := by
  intro origin s
  obtain ⟨begun, admitted, -, ordered⟩ := ordered_after positive clock level shell moves
  refine ⟨asked_after positive clock level shell moves, ordered.increasing, ?_⟩
  by_cases hfirst : first ∈ s.started
  · exact Or.inl (pair_sublist ordered.increasing lt hfirst entered)
  · -- the mark has moved past the first job, which can only have been passed over
    right
    have hbegun : first < begun := Nat.lt_trans lt (ordered.lt_begun second entered)
    obtain ⟨before, after, hmoves, hbarred⟩ := (ordered.passed first hbegun).resolve_left hfirst
    refine ⟨hfirst, before, after, hmoves, hbarred, fun hsecond => ?_⟩
    -- at the turn of the first job the mark stands at it, and no job behind the mark has started
    obtain ⟨mark, admitted', h', ordered'⟩ := ordered_after positive clock level shell before
    obtain ⟨rest, hqueue⟩ := List.head?_eq_some_iff.mp hbarred.1
    obtain ⟨rfl, -, -⟩ := h'.start_head hqueue
    exact absurd (ordered'.lt_begun second hsecond) (Nat.lt_asymm lt)

/-- A task that returns nothing at once. -/
def idleTask : Task := { name := none, body := .immediate (.returned .absent) }

/-- Two tasks share one slot, and the second has just been given it. -/
def twoTasks : List Move :=
  [.arrive (.settle { label := "a", tasks := [idleTask, idleTask] }), .tick, .tick, .tick, .tick]

theorem start_order_twoTasks :
    let s := (fresh Nat.one_pos 0 .info []).after twoTasks
    1 ∈ s.started ∧ [0, 1].Sublist s.started := by
  have started : ((fresh Nat.one_pos 0 .info []).after twoTasks).started = [0, 1] := rfl
  have entered : 1 ∈ ((fresh Nat.one_pos 0 .info []).after twoTasks).started := by
    rw [started]
    decide
  obtain ⟨-, -, order⟩ := start_order Nat.one_pos 0 .info [] twoTasks Nat.zero_lt_one entered
  refine ⟨entered, order.resolve_right fun passed => passed.1 ?_⟩
  rw [started]
  decide

/-- The clock is past the last moment that can be shown, and debug lines are written. The task that
comes first is not started, and the direct call behind it is. -/
def shownTooLate : List Move :=
  [.arrive (.settle { label := "a", tasks := [idleTask] }), .tick, .tick,
   .arrive (.call "b" (.immediate (.returned .absent)) false), .tick]

theorem not_sublist_started_shownTooLate :
    let s := (fresh Nat.one_pos 9000000000000000 .debug []).after shownTooLate
    s.jobs.map (·.label) = ["a", "b"] ∧ 1 ∈ s.started ∧ ¬ [0, 1].Sublist s.started := by
  have started : ((fresh Nat.one_pos 9000000000000000 .debug []).after shownTooLate).started
      = [1] := rfl
  refine ⟨rfl, ?_, ?_⟩
  · rw [started]
    decide
  · rw [started]
    decide

end State

end BoundedJobs
