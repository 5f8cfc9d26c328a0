import BoundedJobs.Proofs.Runner.Crew

/-!
# How jobs come to their ends

A job exits with a result while its slot is still its own, and gives the slot back afterwards. When
a task comes to an outcome, the end hook of its run is told. A stimulus does neither, and a tick
does it for one job at most.

* `State.phase?` — where a job stands;
* `State.exit?` — the result a job exits with, and whether it has given its slot back;
* `State.farewells` — the jobs whose ends were told to hooks, in the order in which that happened.
  They are all among those that have been submitted (`farewells_lt_after`).
-/

namespace BoundedJobs

/-- The result that a job exits with, and whether it has given its slot back. -/
def Phase.exit? : Phase → Option (Result × Bool)
  | leaving result => some (result, false)
  | finished result => some (result, true)
  | _ => none

/-- The job whose end was told to the hook of its run, if an event says so. -/
def Event.ended? : Event → Option Nat
  | ended job .. => some job
  | _ => none

namespace State

variable {s t origin : State} {number : Nat} {job : Job} {capacity spare begun admitted : Nat}
  {phase : Phase}

/-- Where the job with a number stands. -/
def phase? (s : State) (number : Nat) : Option Phase := (s.jobs[number]?).map (·.phase)

/-- What a job exits with, and whether it has given its slot back. -/
def exit? (s : State) (number : Nat) : Option (Result × Bool) :=
  (s.jobs[number]?).bind (·.phase.exit?)

/-- The jobs whose ends were told to the hooks of their runs, in the order in which that
happened. -/
def farewells (s : State) : List Nat := s.events.filterMap Event.ended?

theorem exists_of_phase? (h : s.phase? number = some phase) :
    ∃ job, s.jobs[number]? = some job ∧ job.phase = phase :=
  Option.map_eq_some_iff.mp h

theorem phase?_modify (hj : s.jobs[number]? = some job)
    (jobs : t.jobs = s.jobs.modify number fun j => { j with phase }) (i : Nat) :
    t.phase? i = if i = number then some phase else s.phase? i := by
  unfold phase?
  rw [jobs]
  by_cases heq : i = number
  · subst heq
    rw [if_pos rfl, List.getElem?_modify_eq, hj]
    rfl
  · rw [if_neg heq, List.getElem?_modify_ne _ _ (Ne.symm heq)]

theorem phase?_of_job (hj : s.jobs[number]? = some job) : s.phase? number = some job.phase := by
  unfold phase?
  rw [hj]
  rfl

theorem phase?_congr (jobs : t.jobs = s.jobs) (number : Nat) :
    t.phase? number = s.phase? number := by
  unfold phase?
  rw [jobs]

theorem phase?_place (hj : s.jobs[number]? = some job) (phase : Phase) :
    (s.place number phase).phase? number = some phase := by
  rw [phase?_modify hj rfl, if_pos rfl]

theorem phase?_place_ne {i : Nat} (ne : i ≠ number) (s : State) (phase : Phase) :
    (s.place number phase).phase? i = s.phase? i := by
  unfold phase?
  change ((s.jobs.modify number fun j => { j with phase })[i]?).map _ = _
  rw [List.getElem?_modify_ne _ _ (Ne.symm ne)]

theorem exit?_of_job (hj : s.jobs[number]? = some job) : s.exit? number = job.phase.exit? := by
  unfold exit?
  rw [hj]
  rfl

theorem exit?_of_phase? (h : s.phase? number = some phase) : s.exit? number = phase.exit? := by
  obtain ⟨job, hj, rfl⟩ := exists_of_phase? h
  exact exit?_of_job hj

theorem exit?_congr (jobs : t.jobs = s.jobs) (number : Nat) : t.exit? number = s.exit? number := by
  unfold exit?
  rw [jobs]

theorem exit?_place (hj : s.jobs[number]? = some job) (phase : Phase) (i : Nat) :
    (s.place number phase).exit? i = if i = number then phase.exit? else s.exit? i := by
  unfold exit?
  change ((s.jobs.modify number fun j => { j with phase })[i]?).bind _ = _
  by_cases heq : i = number
  · subst heq
    rw [if_pos rfl, List.getElem?_modify_eq, hj]
    rfl
  · rw [if_neg heq, List.getElem?_modify_ne _ _ (Ne.symm heq)]

/-- A phase without an exit changes nothing where there was none. -/
theorem exit?_place_none (hj : s.jobs[number]? = some job) {phase : Phase}
    (old : job.phase.exit? = none) (new : phase.exit? = none) (i : Nat) :
    (s.place number phase).exit? i = s.exit? i := by
  rw [exit?_place hj]
  split
  · next heq => rw [heq, exit?_of_job hj, old, new]
  · rfl

theorem exit?_submitJob (s : State) (job : Job) (i : Nat) :
    (s.submitJob job).exit? i = s.exit? i := by
  obtain ⟨phase, hjobs, hphase⟩ := submitJob_jobs s job
  have hnone : phase.exit? = none := by
    rcases hphase with rfl | rfl <;> rfl
  unfold exit?
  rw [hjobs]
  rcases Nat.lt_or_ge i s.jobs.length with hlt | hge
  · rw [List.getElem?_append_left hlt]
  · rw [List.getElem?_append_right hge, List.getElem?_singleton, List.getElem?_eq_none hge]
    split
    · exact hnone
    · rfl

theorem exit?_foldl_submitJob (jobs : List Job) (s : State) (i : Nat) :
    (jobs.foldl submitJob s).exit? i = s.exit? i := by
  induction jobs generalizing s with
  | nil => rfl
  | cons job jobs ih => exact (ih (s.submitJob job)).trans (exit?_submitJob s job i)

theorem relays_of_run? (h : job.run? ≠ none) : job.relays = true := by
  by_contra hrelays
  exact h (run?_of_not_relays (Bool.eq_false_iff.mpr hrelays)).2

/-- The run of a task waits for the body, so the end of the body is not yet that of the task. -/
theorem ended_of_run? (h : job.run? ≠ none) (times : Times) (ending : Ending) :
    job.ended times ending = .settled times ending := if_pos (relays_of_run? h)

theorem exit?_ended (h : job.run? ≠ none) (times : Times) (ending : Ending) :
    (job.ended times ending).exit? = none := by
  rw [ended_of_run? h]
  rfl

/-- A body that settles is not the end of a task. -/
theorem nudges_exit? {i : Nat} (h : Relation.ReflTransGen (Nudge origin) s t)
    (task : ∀ job, s.jobs[i]? = some job → job.run? ≠ none) : t.exit? i = s.exit? i := by
  induction h with
  | refl => rfl
  | @tail u v hsteps hstep ih =>
    rw [← ih]
    cases hstep with
    | aside ha => exact exit?_congr ha.jobs i
    | @settled number job times ending job_eq running =>
      by_cases heq : i = number
      · -- a job of a run is waited for by its run
        subst heq
        have hunphased := (nudges_unphased hsteps).symm.trans (List.append_nil _).symm
        obtain ⟨old, hold, hsame⟩ := exists_of_map_append hunphased job_eq
        have hrun : job.run? = old.run? := (congrArg Job.run? hsame).symm
        refine exit?_place_none job_eq (by rw [running]; rfl) (exit?_ended ?_ times _) i
        rw [hrun]
        exact task old hold
      · rw [exit?_place job_eq, if_neg heq]

/-- No task comes to its end when a stimulus arrives. -/
theorem receive_exit? (s : State) (stimulus : Stimulus) {i : Nat}
    (task : ∀ job, s.jobs[i]? = some job → job.run? ≠ none) :
    (s.receive stimulus).exit? i = s.exit? i := by
  cases hs : stimulus with
  | settle request =>
    change (s.submit request).exit? i = _
    rw [submit_eq]
    split
    · rw [opened_eq]
      rfl
    · -- jobs that have just been submitted have not ended
      rw [exit?_foldl_submitJob, opened_eq]
      rfl
  | call => exact (exit?_submitJob s.look _ i).trans (exit?_congr (look_jobs s) i)
  | finish | abort | report | setLevel | setClock | setLags | fire =>
    refine nudges_exit? (receive_nudges s ?_ ?_) task
    · simp
    · simp

/-- A slot goes to a job that has no exit, and gives it none. -/
theorem InLine.exit?_passOn (h : InLine capacity spare s begun admitted) (i : Nat) :
    s.passOn.exit? i = s.exit? i := by
  cases hw : s.slots.waiters with
  | nil =>
    rw [passOn_of_idle hw]
    rfl
  | cons next others =>
    obtain ⟨job, hnext, hphase⟩ := h.job_of_waiter hw
    rw [passOn_of_waiting hw]
    exact exit?_place_none (s := { s with slots := { s.slots with waiters := others } }) hnext
      (by rw [hphase]; rfl) rfl i

theorem farewells_congr (h : t.story = s.story) : t.farewells = s.farewells :=
  filterMap_events_congr (fun _ => rfl) h

theorem Beside.farewells {told : List Event} (h : Beside s t told) :
    t.farewells = s.farewells ++ told.filterMap Event.ended? := h.filterMap fun _ => rfl

theorem Beside.farewells_eq {told : List Event} (h : Beside s t told)
    (quiet : told.filterMap Event.ended? = []) : t.farewells = s.farewells := by
  rw [h.farewells, quiet, List.append_nil]

theorem filterMap_ended?_greeting {told : List Event}
    (h : told = [] ∨ told = s.greeting number job) : told.filterMap Event.ended? = [] :=
  filterMap_greeting (fun _ _ _ => rfl) (fun _ _ _ => rfl) h

theorem filterMap_ended?_entry (s : State) (number : Nat) (job : Job) :
    (s.greeting number job ++ [s.entry number job]).filterMap Event.ended? = [] := by
  rw [List.filterMap_append, filterMap_ended?_greeting (Or.inr rfl)]
  rfl

theorem filterMap_ended?_farewell (s : State) (number run : Nat) (job : Job) (outcome : Outcome) :
    (s.farewell number run job outcome).filterMap Event.ended?
      = if (s.endHook run).isSome then [number] else [] := by
  unfold farewell Hook.told
  split <;> rfl

/-- The end of a job is told once at most, and as that of the job itself. -/
theorem Noted.farewells {times : Times} {ending : Ending} {result : Result}
    (h : Noted s number job times ending t result) :
    t.farewells = s.farewells ∨ t.farewells = s.farewells ++ [number] := by
  have htold : ∀ {run : Nat} {outcome : Outcome}, t.farewells = s.farewells
      ++ (s.farewell number run job outcome).filterMap Event.ended? →
      t.farewells = s.farewells ∨ t.farewells = s.farewells ++ [number] := by
    intro run outcome hfarewells
    rw [filterMap_ended?_farewell] at hfarewells
    split at hfarewells
    · exact Or.inr hfarewells
    · exact Or.inl (hfarewells.trans (List.append_nil _))
  -- to note the message of a failure tells nobody anything
  cases h with
  | call => exact Or.inl rfl
  | outcome _ beside => exact htold beside.farewells
  | crashed _ beside told_eq =>
    rcases told_eq with rfl | rfl
    · exact Or.inl (beside.farewells_eq rfl)
    · exact htold beside.farewells

theorem Opening.farewells {phase : Phase} (h : Opening s number job t phase) :
    t.farewells = s.farewells ∨ t.farewells = s.farewells ++ [number] := by
  have hentry := filterMap_ended?_entry s number job
  cases h with
  | barred beside _ told_eq =>
    exact Or.inl (beside.farewells_eq (filterMap_ended?_greeting told_eq))
  | running _ beside =>
    exact Or.inl ((farewells_congr (arm_story _ _ _)).trans (beside.farewells_eq hentry))
  | settled _ beside => exact Or.inl (beside.farewells_eq hentry)
  | thrown _ beside _ noted =>
    rw [← beside.farewells_eq hentry]
    exact noted.farewells

theorem mem_farewells (h : t.farewells = s.farewells ∨ t.farewells = s.farewells ++ [number])
    (hj : s.jobs[number]? = some job) :
    ∀ i ∈ t.farewells, i ∈ s.farewells ∨ i < s.jobs.length := by
  intro i hi
  rcases h with hsame | hmore
  · exact Or.inl (hsame ▸ hi)
  · rw [hmore] at hi
    refine (List.mem_append.mp hi).imp_right fun hnew => ?_
    rw [List.mem_singleton.mp hnew]
    exact (List.getElem?_eq_some_iff.mp hj).1

theorem Ticked.farewells (h : Ticked s t) :
    ∀ i ∈ t.farewells, i ∈ s.farewells ∨ i < s.jobs.length := by
  cases h with
  | quiet => exact fun i hi => Or.inl hi
  | started _ job_eq _ opening => exact mem_farewells (s := s) opening.farewells job_eq
  | bounced _ _ _ bounced =>
    rw [farewells_congr (passOn_keeps _).2.2.1]
    exact fun i hi => Or.inl (bounced.beside.farewells_eq (filterMap_ended?_entry _ _ _) ▸ hi)
  | finished _ job_eq _ noted => exact mem_farewells (s := s) noted.farewells job_eq
  | released =>
    rw [farewells_congr ((reportBack_keeps _ _ _).2.1.trans (passOn_keeps _).2.2.1)]
    exact fun i hi => Or.inl hi
  | concluded =>
    rw [farewells_congr (conclude_keeps _ _).1]
    exact fun i hi => Or.inl hi

theorem farewells_lt_receive (h : ∀ i ∈ s.farewells, i < s.jobs.length) (stimulus : Stimulus) :
    ∀ i ∈ (s.receive stimulus).farewells, i < (s.receive stimulus).jobs.length := by
  -- nothing is told, and jobs only come behind those there are
  have hlength := congrArg List.length (receive_unphased s stimulus)
  rw [List.length_map, List.length_append, List.length_map] at hlength
  intro i hi
  rw [farewells_congr (receive_story s stimulus)] at hi
  have hlt := h i hi
  omega

theorem Ticked.farewells_lt (ticked : Ticked s t) (h : ∀ i ∈ s.farewells, i < s.jobs.length) :
    ∀ i ∈ t.farewells, i < t.jobs.length := by
  have hlength := congrArg List.length ticked.unphased
  rw [List.length_map, List.length_map] at hlength
  intro i hi
  rw [hlength]
  exact (ticked.farewells i hi).elim (h i) id

/-- Only the ends of jobs that have been submitted are told. -/
theorem farewells_lt_after (positive : 0 < capacity) (clock : Number) (level : Log.Level)
    (shell : Shell) (moves : List Move) :
    ∀ i ∈ ((fresh positive clock level shell).after moves).farewells,
      i < ((fresh positive clock level shell).after moves).jobs.length := by
  induction moves using List.reverseRecOn with
  | nil => exact fun i hi => absurd hi List.not_mem_nil
  | append_singleton moves m ih =>
    obtain ⟨begun, admitted, h⟩ := inLine_after positive clock level shell moves
    rw [after_concat]
    cases m with
    | arrive stimulus => exact farewells_lt_receive ih stimulus
    | tick => exact h.ticked.farewells_lt ih

end State

end BoundedJobs
