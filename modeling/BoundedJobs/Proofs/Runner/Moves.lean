import BoundedJobs.Proofs.Runner.Line

/-!
# Runs of a runner

A runner makes one move after another: a stimulus arrives, at any moment and whatever the queue
holds, or the first piece of work in the queue is done. `State.after` is the state after any
sequence of moves, and the theorems about runners are about all of them.

* `State.Ticked` — the six things that a tick can be. `InLine.ticked` says that a tick in line is
  one of them: no piece of work finds its job in another phase than it expects;
* `inLine_after` — the line of jobs is kept by every sequence of moves;
* `Ticked.unphased`, `Ticked.conclude` — what a tick leaves alone, and when it leads to the
  conclusion of a run;
* `queue_drain` — what is left of the work without further stimuli is always brought to an end, so
  that every stimulus is followed by a moment at which the queue is empty (`respond_eq_after`).
-/

namespace BoundedJobs

/-- What can happen to a runner next. -/
inductive Move where
  /-- Something arrives from outside. -/
  | arrive (stimulus : Stimulus)
  /-- The first piece of work in the queue is done. -/
  | tick

namespace State

variable {s t u : State} {capacity begun admitted : Nat}

/-- A runner after one move. -/
def move (s : State) : Move → State
  | .arrive stimulus => s.receive stimulus
  | .tick => s.tick

/-- A runner after a sequence of moves. -/
def after (s : State) (moves : List Move) : State := moves.foldl move s

@[simp] theorem after_nil (s : State) : s.after [] = s := rfl

theorem after_append (s : State) (first second : List Move) :
    s.after (first ++ second) = (s.after first).after second := List.foldl_append

theorem after_concat (s : State) (moves : List Move) (m : Move) :
    s.after (moves ++ [m]) = (s.after moves).move m := after_append s moves [m]

/-! ## Ticks -/

theorem tick_of_quiet (quiet : s.queue = []) : s.tick = s := by
  unfold tick
  rw [quiet]

theorem tick_of_queue {work : Work} {rest : List Work} (queue : s.queue = work :: rest) :
    s.tick = ({ s with queue := rest } : State).perform work := by
  unfold tick
  rw [queue]

/-- The state whose first piece of work has been taken from the queue. -/
def popped (s : State) : State := { s with queue := s.queue.tail }

/-- The clock is looked at whatever the queue holds. -/
theorem look_popped (s : State) : s.popped.look = s.look.popped := by
  unfold popped look
  dsimp only
  split <;> rfl

/-- What a tick does: nothing, or one of the four kinds of work on a job in the phase for it. A
start comes in two kinds. -/
inductive Ticked (s : State) : State → Prop
  | quiet (queue : s.queue = []) : Ticked s s
  | started {number : Nat} {job : Job} {t : State} {phase : Phase}
      (queue : s.queue = .start number :: s.popped.queue) (job_eq : s.jobs[number]? = some job)
      (granted : job.phase = .granted) (opening : Opening s.popped number job t phase) :
      Ticked s (t.place number phase)
  | bounced {number : Nat} {job : Job} {t : State} {value : Value}
      (queue : s.queue = .start number :: s.popped.queue) (job_eq : s.jobs[number]? = some job)
      (granted : job.phase = .granted) (bounced : Bounced s.popped number job value t) :
      Ticked s
        (t.place number (.finished (.ofCall (s.popped.timesOf job) (.thrown value)))).passOn
  | finished {number : Nat} {job : Job} {times : Times} {ending : Ending} {t : State}
      {result : Result} (queue : s.queue = .finish number :: s.popped.queue)
      (job_eq : s.jobs[number]? = some job) (settled : job.phase = .settled times ending)
      (noted : Noted s.popped number job times ending t result) :
      Ticked s (t.place number (.leaving result))
  | released {number : Nat} {job : Job} {result : Result}
      (queue : s.queue = .release number :: s.popped.queue) (job_eq : s.jobs[number]? = some job)
      (leaving : job.phase = .leaving result) :
      Ticked s (((s.popped.place number (.finished result)).passOn).reportBack job result)
  | concluded {number : Nat} (queue : s.queue = .conclude number :: s.popped.queue) :
      Ticked s (s.popped.conclude number)

theorem place_finished (s : State) (number : Nat) (result : Result) :
    s.place number (.finished result) = s.setPhase number (.finished result) := by
  unfold place
  rw [show (Phase.finished result).work? number = none from rfl, Option.toList_none,
    List.append_nil]
  rfl

/-- **No work is done in vain.** While the jobs are in line, a tick is one of the six kinds. -/
theorem InLine.ticked {spare : Nat} (h : InLine capacity spare s begun admitted) :
    Ticked s s.tick := by
  cases hqueue : s.queue with
  | nil =>
    rw [tick_of_quiet hqueue]
    exact .quiet hqueue
  | cons work rest =>
    have hpopped : s.queue = work :: s.popped.queue := by
      unfold popped
      rw [hqueue]
      rfl
    have htick : s.tick = s.popped.perform work := tick_of_queue hpopped
    have hmem : work ∈ s.queue := by
      rw [hqueue]
      exact List.mem_cons_self
    rw [htick]
    -- the phase of the job can be told from its work
    cases work with
    | start number =>
      obtain ⟨job, hjob, hwork⟩ := h.job_of_mem hmem rfl
      have hphase : job.phase = .granted := by
        cases hp : job.phase <;> rw [hp] at hwork <;> simp [Phase.work?] at hwork ⊢
      change Ticked s (s.popped.start number)
      rcases start_eq (s := s.popped) hjob hphase with
        ⟨t, phase, hstart, hopening⟩ | ⟨value, t, hstart, hbounced⟩
      · rw [hstart]
        exact .started hpopped hjob hphase hopening
      · rw [hstart]
        unfold bounce
        rw [← place_finished]
        exact .bounced hpopped hjob hphase hbounced
    | finish number =>
      obtain ⟨job, hjob, hwork⟩ := h.job_of_mem hmem rfl
      have hphase : ∃ times ending, job.phase = .settled times ending := by
        cases hp : job.phase <;> rw [hp] at hwork <;> simp [Phase.work?] at hwork ⊢
      obtain ⟨times, ending, hphase⟩ := hphase
      obtain ⟨t, result, hfinish, hnoted⟩ := finish_eq (s := s.popped) hjob hphase
      change Ticked s (s.popped.finish number)
      rw [hfinish]
      exact .finished hpopped hjob hphase hnoted
    | release number =>
      obtain ⟨job, hjob, hwork⟩ := h.job_of_mem hmem rfl
      have hphase : ∃ result, job.phase = .leaving result := by
        cases hp : job.phase <;> rw [hp] at hwork <;> simp [Phase.work?] at hwork ⊢
      obtain ⟨result, hphase⟩ := hphase
      change Ticked s (s.popped.release number)
      rw [release_eq (s := s.popped) hjob hphase, ← place_finished]
      exact .released hpopped hjob hphase
    | conclude number => exact .concluded hpopped

/-! ## The line is kept -/

theorem Opening.holds {number : Nat} {job : Job} {phase : Phase}
    (h : Opening s number job t phase) : phase.holds = true := by
  cases h with
  | settled => exact job.holds_ended _ _
  | barred | running | thrown => rfl

theorem Opening.hasBegun {number : Nat} {job : Job} {phase : Phase}
    (h : Opening s number job t phase) : phase.hasBegun = true := by
  cases h with
  | settled => exact job.hasBegun_ended _ _
  | barred | running | thrown => rfl

theorem InLine.started (h : InLine capacity 0 s begun admitted) {number : Nat} {job : Job}
    {phase : Phase} (queue : s.queue = .start number :: s.popped.queue)
    (job_eq : s.jobs[number]? = some job) (granted : job.phase = .granted)
    (opening : Opening s.popped number job t phase) :
    InLine capacity 0 (t.place number phase) (begun + 1) admitted := by
  have same := opening.sameLine
  refine h.begin job_eq granted opening.hasBegun same.jobs same.slots ?_
    (by rw [if_pos opening.holds])
  rw [same.queue]
  exact queue

/-- A call whose function throws at once has begun and gives up its slot. -/
theorem InLine.gaveUp (h : InLine capacity 0 s begun admitted) {number : Nat} {job : Job}
    {value : Value} (queue : s.queue = .start number :: s.popped.queue)
    (job_eq : s.jobs[number]? = some job) (granted : job.phase = .granted)
    (bounced : Bounced s.popped number job value t) (result : Result) :
    InLine capacity 1 (t.place number (.finished result)) (begun + 1) admitted := by
  have same := bounced.sameLine
  refine h.begin job_eq granted rfl same.jobs same.slots ?_ rfl
  rw [same.queue]
  exact queue

theorem InLine.finished (h : InLine capacity 0 s begun admitted) {number : Nat} {job : Job}
    {times : Times} {ending : Ending} {result : Result}
    (queue : s.queue = .finish number :: s.popped.queue) (job_eq : s.jobs[number]? = some job)
    (settled : job.phase = .settled times ending)
    (noted : Noted s.popped number job times ending t result) :
    InLine capacity 0 (t.place number (.leaving result)) begun admitted := by
  have same := noted.sameLine
  refine h.advance job_eq (by rw [settled]; rfl) (by rw [settled]; rfl) rfl same.jobs same.slots
    ?_ rfl
  rw [same.queue, settled]
  exact queue

/-- What a run makes of the result of a job is beside the line. -/
theorem InLine.reportBack (h : InLine capacity 0 s begun admitted) (job : Job) (result : Result) :
    InLine capacity 0 (s.reportBack job result) begun admitted := by
  have same := blamed_sameLine s job result
  have hqueue : (s.reportBack job result).queue
      = s.queue ++ (s.blamed job result).closing job := by
    rw [reportBack_eq, same.queue]
  rw [reportBack_eq] at hqueue ⊢
  refine h.conclusions same.jobs same.slots hqueue ?_
  intro work hwork
  unfold closing at hwork
  split at hwork
  · split at hwork
    · rw [List.mem_singleton.mp hwork]
      rfl
    · exact absurd hwork List.not_mem_nil
  · exact absurd hwork List.not_mem_nil

/-- A job that is leaving gives up its slot, which is spare for the moment. -/
theorem InLine.leave (h : InLine capacity 0 s begun admitted) {number : Nat} {job : Job}
    {result : Result} (queue : s.queue = .release number :: s.popped.queue)
    (job_eq : s.jobs[number]? = some job) (leaving : job.phase = .leaving result) :
    InLine capacity 1 (s.popped.place number (.finished result)) begun admitted := by
  refine h.advance job_eq (by rw [leaving]; rfl) (by rw [leaving]; rfl) rfl rfl rfl ?_ rfl
  rw [leaving]
  exact queue

theorem InLine.released (h : InLine capacity 0 s begun admitted) {number : Nat} {job : Job}
    {result : Result} (queue : s.queue = .release number :: s.popped.queue)
    (job_eq : s.jobs[number]? = some job) (leaving : job.phase = .leaving result) :
    ∃ admitted', InLine capacity 0
      (((s.popped.place number (.finished result)).passOn).reportBack job result)
      begun admitted' := by
  obtain ⟨admitted', hpassed⟩ := (h.leave queue job_eq leaving).passOn
  exact ⟨admitted', hpassed.reportBack job result⟩

theorem conclude_sameLine (s : State) (number : Nat) : SameLine s (s.conclude number) := by
  unfold conclude
  split
  · exact ⟨rfl, rfl, rfl⟩
  · split
    · exact ⟨rfl, rfl, rfl⟩
    · exact ⟨look_jobs s, look_queue s, look_slots s⟩

theorem InLine.concluded (h : InLine capacity 0 s begun admitted) {number : Nat}
    (queue : s.queue = .conclude number :: s.popped.queue) :
    InLine capacity 0 (s.popped.conclude number) begun admitted := by
  -- the conclusion of a run is no work of a job, so it can leave the queue
  have hpopped : InLine capacity 0 s.popped begun admitted := by
    have hstarts := h.starts
    have hqueued := h.queued
    rw [queue] at hstarts hqueued
    exact ⟨h.marked, h.waiters, hstarts, hqueued, h.held, h.held_le, h.busy, h.capacity_eq⟩
  exact hpopped.congr (conclude_sameLine s.popped number)

theorem InLine.tick (h : InLine capacity 0 s begun admitted) :
    ∃ begun' admitted', InLine capacity 0 s.tick begun' admitted' := by
  have hticked := h.ticked
  -- one case for each way in which a piece of work can go
  generalize s.tick = t at hticked
  cases hticked with
  | quiet => exact ⟨begun, admitted, h⟩
  | started queue job_eq granted opening =>
    exact ⟨begun + 1, admitted, h.started queue job_eq granted opening⟩
  -- two marks move at once: the call has begun, and its slot may admit another job
  | bounced queue job_eq granted bounced =>
    obtain ⟨admitted', hpassed⟩ := (h.gaveUp queue job_eq granted bounced _).passOn
    exact ⟨begun + 1, admitted', hpassed⟩
  | finished queue job_eq settled noted =>
    exact ⟨begun, admitted, h.finished queue job_eq settled noted⟩
  | released queue job_eq leaving =>
    obtain ⟨admitted', hreleased⟩ := h.released queue job_eq leaving
    exact ⟨begun, admitted', hreleased⟩
  | concluded queue => exact ⟨begun, admitted, h.concluded queue⟩

theorem InLine.nudge (h : InLine capacity 0 s begun admitted) {origin : State}
    (nudge : Nudge origin s t) : InLine capacity 0 t begun admitted := by
  cases nudge with
  | aside ha => exact h.congr ⟨ha.jobs, ha.queue, ha.slots⟩
  | @settled number job times ending job_eq running =>
    refine h.advance job_eq (by rw [running]; rfl) (by rw [running]; rfl)
      (job.hasBegun_ended _ _) rfl rfl ?_ (by rw [if_pos (job.holds_ended _ _)])
    rw [running]
    rfl

/-- No elementary step of a stimulus moves the mark of the jobs that have begun. -/
theorem InLine.arrival (h : InLine capacity 0 s begun admitted) {origin : State}
    (step : Arrival origin s t) : ∃ admitted', InLine capacity 0 t begun admitted' := by
  cases step with
  | nudged nudge => exact ⟨admitted, h.nudge nudge⟩
  | opened => exact ⟨admitted, h.congr ⟨rfl, rfl, rfl⟩⟩
  | submitted => exact h.submitJob _
  | concluding =>
    refine ⟨admitted, h.conclusions rfl rfl rfl ?_⟩
    intro work hwork
    rw [List.mem_singleton.mp hwork]
    rfl

theorem InLine.receive (h : InLine capacity 0 s begun admitted) (stimulus : Stimulus) :
    ∃ admitted', InLine capacity 0 (s.receive stimulus) begun admitted' := by
  -- newcomers may be admitted on the way; none of them begins
  refine receive_induction (P := fun t => ∃ admitted', InLine capacity 0 t begun admitted') ?_
    ⟨admitted, h⟩ stimulus
  rintro t u hstep ⟨admitted', ht⟩
  exact ht.arrival hstep

theorem InLine.after (h : InLine capacity 0 s begun admitted) (moves : List Move) :
    ∃ begun' admitted', InLine capacity 0 (s.after moves) begun' admitted' := by
  -- the marks move, so the statement is about all of them
  induction moves generalizing s begun admitted with
  | nil => exact ⟨begun, admitted, h⟩
  | cons m moves ih =>
    cases m with
    | arrive stimulus =>
      obtain ⟨admitted', hnext⟩ := h.receive stimulus
      exact ih hnext
    | tick =>
      obtain ⟨begun', admitted', hnext⟩ := h.tick
      exact ih hnext

/-- A runner on which nothing has happened yet. -/
def fresh (positive : 0 < capacity) (clock : Number) (level : Log.Level) (shell : Shell) : State :=
  .idle (.idle capacity positive) clock level shell

/-- **The jobs of a runner are always in line**, whatever has happened to it. -/
theorem inLine_after (positive : 0 < capacity) (clock : Number) (level : Log.Level) (shell : Shell)
    (moves : List Move) :
    ∃ begun admitted,
      InLine capacity 0 ((fresh positive clock level shell).after moves) begun admitted :=
  (InLine.idle positive clock level shell).after moves

/-! ## Who the jobs are -/

/-- A slot that passes on changes no more of a job than its phase, and nothing is told about it. -/
theorem passOn_keeps (s : State) :
    s.passOn.jobs.map Job.unphased = s.jobs.map Job.unphased ∧ s.passOn.runs = s.runs ∧
      s.passOn.story = s.story ∧ s.passOn.timers = s.timers ∧ s.passOn.handles = s.handles := by
  cases hw : s.slots.waiters with
  | nil =>
    rw [passOn_of_idle hw]
    exact ⟨rfl, rfl, rfl, rfl, rfl⟩
  | cons next others =>
    rw [passOn_of_waiting hw]
    exact ⟨place_unphased _ _ _, rfl, rfl, rfl, rfl⟩

/-- What a run makes of the result of a job is in the data of the run and in the queue. -/
theorem reportBack_keeps (s : State) (job : Job) (result : Result) :
    (s.reportBack job result).jobs = s.jobs ∧ (s.reportBack job result).story = s.story ∧
      (s.reportBack job result).timers = s.timers ∧
      (s.reportBack job result).handles = s.handles := by
  rw [reportBack_eq]
  unfold blamed
  split <;> exact ⟨rfl, rfl, rfl, rfl⟩

theorem conclude_keeps (s : State) (number : Nat) :
    (s.conclude number).story = s.story ∧ (s.conclude number).timers = s.timers ∧
      (s.conclude number).handles = s.handles := by
  unfold conclude
  split
  · exact ⟨rfl, rfl, rfl⟩
  · split
    · exact ⟨rfl, rfl, rfl⟩
    · exact ⟨look_story s, look_timers s, look_handles s⟩

/-- A tick changes no more of a job than its phase. -/
theorem Ticked.unphased (h : Ticked s t) :
    t.jobs.map Job.unphased = s.jobs.map Job.unphased := by
  cases h with
  | quiet => rfl
  | started _ _ _ opening =>
    rw [place_unphased, opening.sameLine.jobs]
    rfl
  | bounced _ _ _ bounced =>
    rw [(passOn_keeps _).1, place_unphased, bounced.sameLine.jobs]
    rfl
  | finished _ _ _ noted =>
    rw [place_unphased, noted.sameLine.jobs]
    rfl
  | released =>
    rw [(reportBack_keeps _ _ _).1, (passOn_keeps _).1, place_unphased]
    rfl
  | concluded =>
    rw [(conclude_sameLine _ _).jobs]
    rfl

/-! ## Conclusions in the queue -/

theorem mem_of_popped {work : Work} (h : work ∈ s.popped.queue) : work ∈ s.queue :=
  List.mem_of_mem_tail h

theorem conclude_of_passOn {run : Nat} (h : .conclude run ∈ s.passOn.queue) :
    .conclude run ∈ s.queue := by
  cases hw : s.slots.waiters with
  | nil =>
    rw [passOn_of_idle hw] at h
    exact h
  | cons next others =>
    rw [passOn_of_waiting hw] at h
    exact conclude_of_place h

/-- A job that has finished only leads to the conclusion of its own run, once that is complete. -/
theorem conclude_of_reportBack {run : Nat} {job : Job} {result : Result}
    (h : .conclude run ∈ (s.reportBack job result).queue) :
    .conclude run ∈ s.queue ∨
      job.run? = some run ∧ (s.reportBack job result).isComplete run = true := by
  rw [reportBack_eq] at h ⊢
  rcases List.mem_append.mp h with hold | hnew
  · exact Or.inl ((blamed_sameLine s job result).queue ▸ hold)
  · unfold closing at hnew
    split at hnew
    · next other hother =>
      split at hnew
      · next hcomplete =>
        obtain rfl := Work.conclude.inj (List.mem_singleton.mp hnew)
        exact Or.inr ⟨hother, hcomplete⟩
      · exact absurd hnew List.not_mem_nil
    · exact absurd hnew List.not_mem_nil

/-- A tick only leads to the conclusion of the run of a job that it finishes. -/
theorem Ticked.conclude {run : Nat} (h : Ticked s t) (mem : .conclude run ∈ t.queue) :
    .conclude run ∈ s.queue ∨
      ∃ (number : Nat) (job : Job), s.jobs[number]? = some job ∧ job.run? = some run := by
  cases h with
  | quiet => exact Or.inl mem
  | started _ _ _ opening =>
    have hmem := conclude_of_place mem
    rw [opening.sameLine.queue] at hmem
    exact Or.inl (mem_of_popped hmem)
  | bounced _ _ _ bounced =>
    have hmem := conclude_of_place (conclude_of_passOn mem)
    rw [bounced.sameLine.queue] at hmem
    exact Or.inl (mem_of_popped hmem)
  | finished _ _ _ noted =>
    have hmem := conclude_of_place mem
    rw [noted.sameLine.queue] at hmem
    exact Or.inl (mem_of_popped hmem)
  -- only a job that reports back can complete its run
  | released _ job_eq _ =>
    rcases conclude_of_reportBack mem with hold | ⟨hrun, -⟩
    · exact Or.inl (mem_of_popped (conclude_of_place (conclude_of_passOn hold)))
    · exact Or.inr ⟨_, _, job_eq, hrun⟩
  | concluded =>
    rw [(conclude_sameLine _ _).queue] at mem
    exact Or.inl (mem_of_popped mem)

/-! ## Quiescence -/

/-- The phases that jobs still have in front of them, all together. -/
def ahead (jobs : List Job) : Nat := jobs.foldr (fun job total => job.phase.distance + total) 0

theorem ahead_append (first second : List Job) :
    ahead (first ++ second) = ahead first + ahead second := by
  induction first with
  | nil => exact (Nat.zero_add _).symm
  | cons job jobs ih =>
    change job.phase.distance + ahead (jobs ++ second) = job.phase.distance + ahead jobs + _
    rw [ih, Nat.add_assoc]

theorem ahead_modify {jobs : List Job} {number : Nat} {job : Job}
    (h : jobs[number]? = some job) (phase : Phase) :
    ahead (jobs.modify number fun j => { j with phase }) + job.phase.distance
      = ahead jobs + phase.distance := by
  obtain ⟨before, after, hjobs, -, hmodify⟩ := exists_split h
  have hcons : ∀ j : Job, ahead (before ++ j :: after)
      = ahead before + (j.phase.distance + ahead after) := fun j => ahead_append before (j :: after)
  rw [hmodify, hjobs, hcons, hcons]
  dsimp only
  omega

theorem effort_eq (s : State) : s.effort = s.queue.length + 2 * ahead s.jobs := rfl

theorem effort_congr (same : SameLine s t) : t.effort = s.effort := by
  rw [effort_eq, effort_eq, same.jobs, same.queue]

/-- A job that moves on costs what it has in front of it, and asks for one piece of work at most. -/
theorem effort_place {number : Nat} {job : Job} (hj : s.jobs[number]? = some job)
    (phase : Phase) :
    (s.place number phase).effort + 2 * job.phase.distance
      ≤ s.effort + 1 + 2 * phase.distance := by
  have hwork : (phase.work? number).toList.length ≤ 1 := by
    cases phase.work? number <;> simp
  have hahead := ahead_modify hj phase
  rw [effort_eq, effort_eq]
  change (s.queue ++ (phase.work? number).toList).length
    + 2 * ahead (s.jobs.modify number fun j => { j with phase }) + _ ≤ _
  rw [List.length_append]
  omega

theorem Opening.distance {number : Nat} {job : Job} {phase : Phase}
    (h : Opening s number job t phase) : phase.distance < Phase.granted.distance := by
  cases h with
  | settled =>
    unfold Job.ended
    split <;> simp [Phase.distance]
  | barred | running | thrown => simp [Phase.distance]

theorem InLine.effort_passOn {spare : Nat} (h : InLine capacity spare s begun admitted) :
    s.passOn.effort ≤ s.effort := by
  cases hw : s.slots.waiters with
  | nil =>
    rw [passOn_of_idle hw]
    exact Nat.le_refl _
  | cons next others =>
    -- the start of the waiter is paid for by the phase that it leaves
    obtain ⟨job, hnext, hphase⟩ := h.job_of_waiter hw
    rw [passOn_of_waiting hw]
    have hplace := effort_place
      (s := { s with slots := { s.slots with waiters := others } }) hnext .granted
    rw [hphase] at hplace
    change _ + 2 * 5 ≤ s.effort + 1 + 2 * 4 at hplace
    omega

theorem effort_reportBack (s : State) (job : Job) (result : Result) :
    (s.reportBack job result).effort ≤ s.effort + 1 := by
  have hblamed : (s.blamed job result).effort = s.effort :=
    effort_congr (blamed_sameLine s job result)
  have hclosing : ((s.blamed job result).closing job).length ≤ 1 := by
    unfold closing
    split
    · split <;> simp
    · simp
  rw [reportBack_eq, ← hblamed, effort_eq, effort_eq]
  simp only [List.length_append]
  omega

/-- **Every piece of work lowers the effort that is left.** -/
theorem InLine.effort_tick (h : InLine capacity 0 s begun admitted) (hne : s.queue ≠ []) :
    s.tick.effort < s.effort := by
  have hpopped : s.effort = s.popped.effort + 1 := by
    cases hqueue : s.queue with
    | nil => exact absurd hqueue hne
    | cons work rest =>
      rw [effort_eq, effort_eq]
      unfold popped
      rw [hqueue]
      simp only [List.length_cons, List.tail_cons]
      omega
  have hticked := h.ticked
  generalize s.tick = t at hticked
  cases hticked with
  | quiet queue => exact absurd queue hne
  | @started number job t phase queue job_eq granted opening =>
    have hjob : t.jobs[number]? = some job := by
      rw [opening.sameLine.jobs]
      exact job_eq
    have hplace := effort_place hjob phase
    have hsame : t.effort = s.popped.effort := effort_congr opening.sameLine
    have hdistance := opening.distance
    rw [granted] at hplace
    omega
  | @bounced number job t value queue job_eq granted bounced =>
    have hjob : t.jobs[number]? = some job := by
      rw [bounced.sameLine.jobs]
      exact job_eq
    have hplace := effort_place hjob
      (.finished (.ofCall (s.popped.timesOf job) (.thrown value)))
    have hsame : t.effort = s.popped.effort := effort_congr bounced.sameLine
    have hpass := (h.gaveUp queue job_eq granted bounced
      (.ofCall (s.popped.timesOf job) (.thrown value))).effort_passOn
    rw [granted] at hplace
    change _ + 2 * 4 ≤ t.effort + 1 + 2 * 0 at hplace
    omega
  | @finished number job times ending t result queue job_eq settled noted =>
    have hjob : t.jobs[number]? = some job := by
      rw [noted.sameLine.jobs]
      exact job_eq
    have hplace := effort_place hjob (.leaving result)
    have hsame : t.effort = s.popped.effort := effort_congr noted.sameLine
    rw [settled] at hplace
    change _ + 2 * 2 ≤ t.effort + 1 + 2 * 1 at hplace
    omega
  | @released number job result queue job_eq leaving =>
    have hplace := effort_place (s := s.popped) job_eq (.finished result)
    rw [leaving] at hplace
    change _ + 2 * 1 ≤ s.popped.effort + 1 + 2 * 0 at hplace
    -- the phase that is left pays for the conclusion that the run may be ready for
    have hpass := (h.leave queue job_eq leaving).effort_passOn
    have hreport := effort_reportBack (s.popped.place number (.finished result)).passOn job result
    omega
  | concluded queue =>
    rw [effort_congr (conclude_sameLine s.popped _)]
    omega

theorem InLine.drainWithin (h : InLine capacity 0 s begun admitted) {fuel : Nat}
    (enough : s.effort ≤ fuel) : (s.drainWithin fuel).queue = [] := by
  induction fuel generalizing s begun admitted with
  | zero =>
    -- no effort is left, so no work is
    have hlength : s.queue.length = 0 := by
      rw [effort_eq] at enough
      omega
    exact List.length_eq_zero_iff.mp hlength
  | succ fuel ih =>
    unfold State.drainWithin
    split
    · next hempty => exact List.isEmpty_iff.mp hempty
    · next hnonempty =>
      have hlt := h.effort_tick (fun hq => hnonempty (List.isEmpty_iff.mpr hq))
      obtain ⟨begun', admitted', hnext⟩ := h.tick
      exact ih hnext (by omega)

/-- **All work comes to an end.** -/
theorem InLine.queue_drain (h : InLine capacity 0 s begun admitted) : s.drain.queue = [] :=
  h.drainWithin (Nat.le_refl _)

theorem drainWithin_eq_after (fuel : Nat) (s : State) :
    ∃ n, s.drainWithin fuel = s.after (List.replicate n .tick) := by
  induction fuel generalizing s with
  | zero => exact ⟨0, rfl⟩
  | succ fuel ih =>
    unfold State.drainWithin
    split
    · exact ⟨0, rfl⟩
    · obtain ⟨n, hn⟩ := ih s.tick
      exact ⟨n + 1, hn⟩

/-- A stimulus with all the work that follows it is a sequence of moves. -/
theorem respond_eq_after (s : State) (stimulus : Stimulus) :
    ∃ n, s.respond stimulus = s.after (.arrive stimulus :: List.replicate n .tick) :=
  drainWithin_eq_after _ (s.receive stimulus)

end State

end BoundedJobs
