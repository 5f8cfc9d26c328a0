import BoundedJobs.Proofs.Runner.Beside

/-!
# What one piece of work does

There are four kinds of work, and one theorem for each says all that it does:

* `start_eq` — a granted job starts. `State.Opening` lists the ways: its body is entered and goes
  on, settles or throws at once, or a line about its start cannot be written;
* `finish_eq` — a settled job has the end of its body noted;
* `release_eq` — a job that is leaving is finished, its slot passes on, and the last job of a run
  puts the conclusion of the run into the queue;
* `conclude_eq` — a run without an answer gets one.

Each is said of a job in the phase that the work expects. That a piece of work never finds its job
in another phase is a matter of the whole line of jobs, and comes later.
-/

namespace BoundedJobs

namespace State

variable {s t u : State} {number : Nat} {job : Job}

/-! ## The start of a body -/

/-- What observers are told about a job that starts, before its body is entered. -/
def greeting (s : State) (number : Nat) (job : Job) : List Event :=
  match job.run? with
  | some run => Hook.told (s.startHook run) (.started number job.label job.name)
  | none => [.called number job.label (s.look.clock - job.submitted)]

/-- What is read off an event that is neither a start nor a call is not read off a greeting. -/
theorem filterMap_greeting {α : Type} {f : Event → Option α} {told : List Event}
    (started : ∀ number label name, f (.started number label name) = none)
    (called : ∀ number label waited, f (.called number label waited) = none)
    (h : told = [] ∨ told = s.greeting number job) : told.filterMap f = [] := by
  rcases h with rfl | rfl
  · rfl
  · unfold greeting
    split
    · exact Hook.filterMap_told (started _ _ _) _
    · rw [List.filterMap_cons_none (called _ _ _)]
      rfl

/-- What observers are told when the body of a job is entered. -/
def entry (s : State) (number : Nat) (job : Job) : Event :=
  .entered number job.label job.place (s.isAborted job)

/-- The state at the moment at which the body of a job is entered. A task looks at the clock twice
until then: how long it has waited is known before its hook is told. -/
def looked (s : State) (job : Job) : State :=
  match job.run? with
  | some _ => s.look.look
  | none => s.look

theorem looked_eq (s : State) (job : Job) : s.looked job = s.look.look ∨ s.looked job = s.look := by
  unfold looked
  split
  · exact Or.inl rfl
  · exact Or.inr rfl

theorem looked_of_task (task : job.run? ≠ none) : s.looked job = s.look.look := by
  unfold looked
  split
  · rfl
  · next direct => exact absurd direct task

theorem looked_beside (s : State) (job : Job) : Beside s (s.looked job) [] := by
  rcases looked_eq s job with h | h <;> rw [h]
  · exact (look_beside s).trans (look_beside s.look)
  · exact look_beside s

/-- The times of a job that starts next. -/
def timesOf (s : State) (job : Job) : Times :=
  { waited := s.look.clock - job.submitted, started := (s.looked job).clock }

/-- A line about the start of a task is due and cannot be written: the debug line about its waiting,
or the warning about a start hook that throws. -/
def Bars (s : State) (job : Job) : Prop :=
  ∃ run, job.run? = some run ∧
    (s.look.Refuses .debug ∨
      Hook.throwsAt (s.startHook run) job.place = true ∧ s.look.Refuses .warn)

/-- What a body that goes on is ended by: its timer, the report of its child, or its handle. -/
def arm (s : State) (number : Nat) : Body → State
  | .timed delay ending _ => s.addTimer delay (.settle number ending)
  | .manual _ => s.giveHandle number
  | .command line _ =>
    s.addTimer (s.shell.child line).delay (.child number (s.shell.child line).report)
  | _ => s

section Arm

variable (s : State) (number : Nat) (body : Body)

theorem arm_sameLine : SameLine s (s.arm number body) := by
  cases body <;> exact ⟨rfl, rfl, rfl⟩

theorem arm_runs : (s.arm number body).runs = s.runs := by cases body <;> rfl

theorem arm_story : (s.arm number body).story = s.story := by cases body <;> rfl

end Arm

/-- `t` is `s` after the start of a job that is granted, the phase of the job apart, and the job
moves on to the phase. -/
inductive Opening (s : State) (number : Nat) (job : Job) : State → Phase → Prop
  /-- The body is not entered. -/
  | barred {t : State} {fault : Fault} {told : List Event} (beside : Beside s t told)
      (time : SameTime s.look t) (told_eq : told = [] ∨ told = s.greeting number job)
      (bars : s.Bars job) : Opening s number job t (.leaving (.crashed fault))
  /-- The body is entered and goes on. -/
  | running {mid : State} (lasts : job.body.lasts = true)
      (beside : Beside s mid (s.greeting number job ++ [s.entry number job]))
      (time : SameTime (s.looked job) mid) :
      Opening s number job (mid.arm number job.body) (.running (s.timesOf job))
  /-- The body is entered and settles at once. -/
  | settled {t : State} {ending : Ending} (allowed : job.body.Allows ending)
      (beside : Beside s t (s.greeting number job ++ [s.entry number job]))
      (time : SameTime (s.looked job) t) :
      Opening s number job t (job.ended (s.timesOf job) ending)
  /-- The body is entered and throws at once: its end is noted without any wait. -/
  | thrown {mid t : State} {value : Value} {result : Result}
      (body : job.body = .immediate (.thrown value))
      (beside : Beside s mid (s.greeting number job ++ [s.entry number job]))
      (time : SameTime (s.looked job) mid)
      (noted : Noted mid number job (s.timesOf job) (.thrown value) t result) :
      Opening s number job t (.leaving result)

theorem Opening.sameLine {phase : Phase} (h : Opening s number job t phase) : SameLine s t := by
  cases h with
  | barred beside => exact beside.sameLine
  | @running mid _ beside => exact beside.sameLine.trans (mid.arm_sameLine number job.body)
  | settled _ beside => exact beside.sameLine
  | thrown _ beside _ noted => exact beside.sameLine.trans noted.sameLine

/-- `t` is `s` after the start of a direct call that is granted and whose function throws before
anything is waited for, the phase of the job and the return of its slot apart. -/
structure Bounced (s : State) (number : Nat) (job : Job) (value : Value) (t : State) : Prop where
  owner : job.owner = .caller false
  body : job.body = .immediate (.thrown value)
  beside : Beside s t (s.greeting number job ++ [s.entry number job])
  time : SameTime (s.looked job) t

theorem Bounced.sameLine {value : Value} (h : Bounced s number job value t) : SameLine s t :=
  h.beside.sameLine

/-- A call that is over at once is a direct call. -/
theorem Bounced.direct {value : Value} (h : Bounced s number job value t) : job.run? = none := by
  unfold Job.run?
  rw [h.owner]

theorem run?_of_not_relays (h : job.relays = false) :
    job.owner = .caller false ∧ job.run? = none := by
  unfold Job.relays at h
  unfold Job.run?
  cases howner : job.owner with
  | run => rw [howner] at h; cases h
  | caller => rw [howner] at h; exact ⟨congrArg _ h, rfl⟩

theorem run_eq_place (s : State) (number : Nat) (times : Times) :
    s.run number times = s.place number (.running times) := by
  unfold run place
  rw [show (Phase.running times).work? number = none from rfl, Option.toList_none, List.append_nil]
  rfl

/-- What happens once the body of a job has been entered. -/
inductive Entered (s : State) (number : Nat) (job : Job) (times : Times) : State → Prop
  | running {t : State} (lasts : job.body.lasts = true) (beside : Beside s t [s.entry number job])
      (time : SameTime s t) :
      Entered s number job times ((t.arm number job.body).place number (.running times))
  | settled {t : State} {ending : Ending} (allowed : job.body.Allows ending)
      (beside : Beside s t [s.entry number job]) (time : SameTime s t) :
      Entered s number job times (t.place number (job.ended times ending))
  | thrown {t : State} {value : Value} (body : job.body = .immediate (.thrown value))
      (beside : Beside s t [s.entry number job]) (time : SameTime s t) :
      Entered s number job times (t.wrapUp number job times (.thrown value))
  | bounced {t : State} {value : Value} (owner : job.owner = .caller false)
      (body : job.body = .immediate (.thrown value)) (beside : Beside s t [s.entry number job])
      (time : SameTime s t) : Entered s number job times (t.bounce number times value)

/-- A body that settles places its job. -/
theorem settle_eq_place (s : State) (number : Nat) (job : Job) (times : Times) (ending : Ending) :
    s.settle number job times ending = s.place number (job.ended times ending.effective) := by
  unfold settle Job.ended
  split <;> rfl

theorem enterCommand_entered {line : String} {quiet : Bool} (body : job.body = .command line quiet)
    (times : Times) (h : Beside s t [s.entry number job]) (time : SameTime s t) :
    Entered s number job times (t.enterCommand number job times line quiet) := by
  have hallowed : ∀ ending, job.body.Allows ending := by
    intro ending
    rw [body]
    trivial
  unfold enterCommand
  simp only [settle_eq_place]
  split
  · exact Entered.settled (hallowed _) h time
  · have hline := logged_beside t .debug (Command.startMessage line) .absent
    have hlater := time.trans (logged_sameTime t .debug (Command.startMessage line) .absent)
    split
    · next v fault hl =>
      rw [hl] at hline hlater
      exact Entered.settled (hallowed _) (h.trans_quiet hline) hlater
    · next v hl =>
      rw [hl] at hline hlater
      have hv := h.trans_quiet hline
      -- asking for the child is beside the jobs
      have hspawn : ∀ spawned, Beside s { v with spawned } [s.entry number job] := by
        intro spawned
        exact ⟨hv.jobs, hv.queue, hv.slots, hv.runs, hv.level, hv.timers, hv.handles, hv.story⟩
      have htime : ∀ spawned, SameTime s { v with spawned } :=
        fun spawned => ⟨hlater.clock, hlater.lags⟩
      split
      · exact Entered.settled (hallowed _) (hspawn _) (htime _)
      · have hrunning := @Entered.running s number job times _ (by rw [body]; rfl)
          (hspawn (v.spawned ++ [{ job := number, line, quiet }])) (htime _)
        rw [body] at hrunning
        rw [run_eq_place]
        exact hrunning

/-- The body of a job is entered: it goes on, settles, or throws at once. -/
theorem enter_entered (s : State) (number : Nat) (job : Job) (times : Times) :
    Entered s number job times (s.enter number job times) := by
  have hentry : Beside s (s.emit (s.entry number job)) [s.entry number job] := Beside.emit s rfl
  have htime : SameTime s (s.emit (s.entry number job)) := ⟨rfl, rfl⟩
  unfold enter
  simp only [settle_eq_place]
  split
  · next line quiet hb => exact enterCommand_entered hb times hentry htime
  · next value hb =>
    split
    · -- a throw is caught for a task, and for a call that is relayed by a function of its own
      exact Entered.thrown hb hentry htime
    · next hrelays =>
      -- a direct call passes it on to the caller at once
      exact Entered.bounced (run?_of_not_relays (Bool.eq_false_iff.mpr hrelays)).1 hb hentry htime
  · next ending _ hb => exact Entered.settled (by rw [hb]; rfl) hentry htime
  · next ending hb => exact Entered.settled (by rw [hb]; rfl) hentry htime
  · next delay ending onAbort hb =>
    split
    · next early _ =>
      exact Entered.settled (by rw [hb]; exact Body.allows_early rfl) hentry htime
    · have hrunning := @Entered.running s number job times _ (by rw [hb]; rfl) hentry htime
      rw [hb] at hrunning
      rw [run_eq_place]
      exact hrunning
  · next onAbort hb =>
    split
    · next early _ => exact Entered.settled (by rw [hb]; trivial) hentry htime
    · have hrunning := @Entered.running s number job times _ (by rw [hb]; rfl) hentry htime
      rw [hb] at hrunning
      rw [run_eq_place]
      exact hrunning

/-- What a granted job can come to when it starts: it is placed, or its slot comes back at once. -/
def Starts (s : State) (number : Nat) (job : Job) (started : State) : Prop :=
  (∃ t phase, started = t.place number phase ∧ Opening s number job t phase) ∨
    ∃ value t, started = t.bounce number (s.timesOf job) value ∧ Bounced s number job value t

/-- A job whose body is entered is placed in the phase that its body brings about. -/
theorem Entered.starts {mid : State} (h : Entered mid number job (s.timesOf job) t)
    (beside : Beside s mid (s.greeting number job)) (time : SameTime (s.looked job) mid) :
    s.Starts number job t := by
  have hentry : mid.entry number job = s.entry number job := by
    unfold entry isAborted
    rw [beside.runs]
  -- what has been told before stands before the entry
  cases h with
  | running lasts h later =>
    rw [hentry] at h
    exact Or.inl ⟨_, _, rfl, Opening.running lasts (beside.trans h) (time.trans later)⟩
  | settled allowed h later =>
    rw [hentry] at h
    exact Or.inl ⟨_, _, rfl, Opening.settled allowed (beside.trans h) (time.trans later)⟩
  | @thrown after value body h later =>
    rw [hentry] at h
    obtain ⟨u, result, hwrap, hnoted⟩ :=
      wrapUp_eq after number job (s.timesOf job) (.thrown value)
    exact Or.inl ⟨u, _, hwrap, Opening.thrown body (beside.trans h) (time.trans later) hnoted⟩
  | bounced owner body h later =>
    rw [hentry] at h
    exact Or.inr ⟨_, _, rfl, owner, body, beside.trans h, time.trans later⟩

theorem startTask_starts {run : Nat} (task : job.run? = some run) :
    s.Starts number job (s.look.startTask number run job (s.look.clock - job.submitted)) := by
  have hline := (look_beside s).trans
    (logged_beside s.look .debug (waitMessage job (s.look.clock - job.submitted)) .absent)
  have htime := logged_sameTime s.look .debug
    (waitMessage job (s.look.clock - job.submitted)) .absent
  have hgreeting : s.greeting number job
      = Hook.told (s.startHook run) (.started number job.label job.name) := by
    unfold greeting
    rw [task]
  have hlooked : s.looked job = s.look.look := by
    unfold looked
    rw [task]
  unfold startTask
  split
  · -- the line about the waiting is refused
    next v fault hl =>
    rw [hl] at hline htime
    refine Or.inl ⟨v, _, rfl, Opening.barred hline htime (Or.inl rfl) ⟨run, task, Or.inl ?_⟩⟩
    exact logged_refused Log.isPlain_absent (by rw [hl])
  · next v hl =>
    rw [hl] at hline htime
    have hhook : (v.runs[run]?).bind (·.hooks.onStart) = s.startHook run := by
      rw [show v.runs = s.runs from hline.runs]
      rfl
    simp only [hhook]
    have htold := tellHook_beside v "onTaskStart" (s.startHook run) job.place
      (.started number job.label job.name) rfl
    have hbeside := hline.trans htold
    have hlater := htime.trans (tellHook_sameTime v "onTaskStart" (s.startHook run) job.place
      (.started number job.label job.name))
    rw [List.nil_append, List.nil_append, ← hgreeting] at hbeside
    split
    · -- the hook throws, and the warning about that is refused
      next w fault hw =>
      rw [hw] at hbeside hlater
      obtain ⟨hthrows, hshows, hinvalid⟩ := tellHook_refused (congrArg Prod.snd hw)
      have hlevel : v.level = s.look.level := hline.level.trans (look_level s).symm
      exact Or.inl ⟨w, _, rfl, Opening.barred hbeside hlater (Or.inr rfl)
        ⟨run, task, Or.inr ⟨hthrows, hlevel ▸ hshows, htime.clock ▸ hinvalid⟩⟩⟩
    · next w hw =>
      rw [hw] at hbeside hlater
      -- the hook may have taken its time, so the body is entered at another moment
      have hentered : SameTime (s.looked job) w.look := hlooked ▸ hlater.look
      have htimes : ({ waited := s.look.clock - job.submitted, started := w.look.clock } : Times)
          = s.timesOf job := by
        unfold timesOf
        rw [hentered.clock]
      rw [htimes]
      exact (enter_entered w.look number job (s.timesOf job)).starts
        (hbeside.trans_quiet (look_beside w)) hentered

/-- **A granted job starts.** It is placed in one of the ways of `Opening`, or its function has
thrown and its slot comes back at once. -/
theorem start_eq (h : s.jobs[number]? = some job) (granted : job.phase = .granted) :
    s.Starts number job (s.start number) := by
  unfold start
  simp only [h, granted]
  cases task : job.run? with
  | some run => exact startTask_starts task
  | none =>
    -- a direct call has no hook and no line in front of its body
    have hgreeting : s.greeting number job
        = [.called number job.label (s.look.clock - job.submitted)] := by
      unfold greeting
      rw [task]
    have hlooked : s.looked job = s.look := by
      unfold looked
      rw [task]
    have hcalled : Beside s
        (s.look.emit (.called number job.label (s.look.clock - job.submitted)))
        (s.greeting number job) := by
      rw [hgreeting]
      exact (look_beside s).trans (Beside.emit s.look rfl)
    have htimes : ({ waited := s.look.clock - job.submitted, started := s.look.clock } : Times)
        = s.timesOf job := by
      unfold timesOf
      rw [hlooked]
    dsimp only
    rw [htimes]
    exact (enter_entered _ number job (s.timesOf job)).starts hcalled (hlooked ▸ ⟨rfl, rfl⟩)

/-! ## The end of a body -/

/-- **A settled job has the end of its body noted.** -/
theorem finish_eq {times : Times} {ending : Ending} (h : s.jobs[number]? = some job)
    (settled : job.phase = .settled times ending) :
    ∃ t result, s.finish number = t.place number (.leaving result) ∧
      Noted s number job times ending t result := by
  unfold finish
  simp only [h, settled]
  exact wrapUp_eq s number job times ending

/-! ## The return of a slot -/

theorem passOn_of_waiting {next : Nat} {others : List Nat} (h : s.slots.waiters = next :: others) :
    s.passOn = { s with slots := { s.slots with waiters := others } }.place next .granted := by
  unfold passOn Semaphore.giveBack
  rw [h]
  rfl

theorem passOn_of_idle (h : s.slots.waiters = []) :
    s.passOn = { s with slots := { s.slots with held := s.slots.held - 1 } } := by
  have hback : s.slots.giveBack = ({ s.slots with held := s.slots.held - 1 }, none) := by
    unfold Semaphore.giveBack
    split
    · next hw => exact absurd (h.symm.trans hw) (by simp)
    · rfl
  unfold passOn
  rw [hback]

/-- A crash of a task is the answer of its run, unless the run has one. -/
def blamed (s : State) (job : Job) (result : Result) : State :=
  match job.run?, result with
  | some run, .crashed fault =>
    s.modifyRun run fun r => if r.answer.isNone then { r with answer := some (.error fault) } else r
  | _, _ => s

/-- The conclusion that the run of a job is ready for. -/
def closing (s : State) (job : Job) : List Work :=
  match job.run? with
  | some run => if s.isComplete run then [.conclude run] else []
  | none => []

theorem blamed_sameLine (s : State) (job : Job) (result : Result) :
    SameLine s (s.blamed job result) := by
  unfold blamed
  split <;> exact ⟨rfl, rfl, rfl⟩

theorem reportBack_eq (s : State) (job : Job) (result : Result) :
    s.reportBack job result =
      { s.blamed job result with
        queue := (s.blamed job result).queue ++ (s.blamed job result).closing job } := by
  unfold reportBack blamed closing
  cases job.run? with
  | none => simp
  | some run =>
    cases result <;> simp only <;> split <;> first | rfl | simp

/-- **A job that is leaving is finished**: its slot passes on, and then its run hears of it. -/
theorem release_eq {result : Result} (h : s.jobs[number]? = some job)
    (leaving : job.phase = .leaving result) :
    s.release number = ((s.setPhase number (.finished result)).passOn).reportBack job result := by
  unfold release
  simp only [h, leaving]

/-! ## The conclusion of a run -/

/-- **A run without an answer gets one.** -/
theorem conclude_eq {run : Run} (h : s.runs[number]? = some run) (unanswered : run.answer = none) :
    s.conclude number =
      { s.look.modifyRun number fun r =>
          { r with answer := some (answerOf run (s.look.reportOf number run)) } with
        reports := s.reports + 1 } := by
  unfold conclude
  simp only [h, unanswered, look_reports]

/-- A run keeps the answer that it has. -/
theorem conclude_eq_self (h : ∀ run, s.runs[number]? = some run → run.answer ≠ none) :
    s.conclude number = s := by
  unfold conclude
  split
  · rfl
  · next run hr =>
    split
    · rfl
    · next hn => exact absurd hn (h run hr)

end State

end BoundedJobs
