import BoundedJobs.Proofs.Runner.Exits

/-!
# While the clock shows a date

A line that cannot be written is the only thing that keeps a task from its outcome, and the clock is
all that such a line can fail for. So while the clock stays in the range of dates, hooks and log
lines leave nothing behind but events, whatever the hooks throw and at whatever level:

* `State.Clocked` — the clock shows a number of a kind, and so will every look at it for which it is
  settled how much time passes before;
* `State.Dated` — these numbers are dates;
* `startTask_of_dated`, `wrapUpTask_of_dated` — what is left of the start and of the end of a task;
* `InLine.unharmed_tick` — no task crashes;
* `Ticked.time` — a tick may look at the clock, and time passes in no other way while work is done.
-/

namespace BoundedJobs

namespace State

variable {s t : State} {number : Nat} {job : Job} {capacity begun admitted : Nat}

/-- The clock shows a number of a kind, now and at every look for which it is settled how much time
passes before. -/
def Clocked (kind : Number → Prop) (s : State) : Prop :=
  ∀ count, count ≤ s.lags.length → kind (s.looks count).clock

/-- The clock shows a date. -/
abbrev Dated (s : State) : Prop := s.Clocked Timestamp.InRange

instance (s : State) : Decidable s.Dated := inferInstanceAs (Decidable (∀ _, _ → _))

section Clocked

variable {kind : Number → Prop}

theorem Clocked.now (h : s.Clocked kind) : kind s.clock := h 0 (Nat.zero_le _)

/-- Once the lags are used up, the clock shows what it showed last. -/
theorem Clocked.look (h : s.Clocked kind) : s.look.Clocked kind := by
  cases hlags : s.lags with
  | nil =>
    rw [look_of_unlagged hlags]
    exact h
  | cons lag lags =>
    intro count hcount
    refine h (count + 1) ?_
    unfold State.look at hcount
    rw [hlags] at hcount ⊢
    exact Nat.succ_le_succ hcount

theorem Clocked.looks (h : s.Clocked kind) (count : Nat) : (s.looks count).Clocked kind := by
  induction count generalizing s with
  | zero => exact h
  | succ count ih => exact ih h.look

theorem Clocked.congr (h : s.Clocked kind) (time : SameTime s t) : t.Clocked kind := by
  intro count hcount
  rw [(time.looks count).clock]
  exact h count (time.lags ▸ hcount)

theorem looked_of_unlagged (unlagged : s.lags = []) (job : Job) : s.looked job = s := by
  rcases looked_eq s job with h | h <;> rw [h]
  · exact looks_of_unlagged unlagged 2
  · exact look_of_unlagged unlagged

/-- Without lags, only what the clock shows now matters. -/
theorem clocked_of_unlagged (unlagged : s.lags = []) (now : kind s.clock) : s.Clocked kind := by
  intro count _
  rw [looks_of_unlagged unlagged]
  exact now

theorem Clocked.looked (h : s.Clocked kind) (job : Job) : (s.looked job).Clocked kind := by
  rcases looked_eq s job with hlooked | hlooked
  · exact hlooked ▸ h.look.look
  · exact hlooked ▸ h.look

end Clocked

theorem Clocked.not_refuses (h : s.Dated) (level : Log.Level) : ¬ s.Refuses level :=
  fun refuses => Timestamp.text_ne_error h.now _ refuses.2

/-- No line is in the way of a job that starts. -/
theorem Clocked.not_bars (h : s.Dated) (job : Job) : ¬ s.Bars job := by
  rintro ⟨run, -, refuses | ⟨-, refuses⟩⟩
  · exact h.look.not_refuses _ refuses
  · exact h.look.not_refuses _ refuses

/-! ## Lines and hooks -/

theorem logged_of_dated (now : Timestamp.InRange s.clock) {data : Value} (plain : Log.IsPlain data)
    (level : Log.Level) (message : String) :
    ∃ events, s.logged level message data = ({ s with events }, none) := by
  unfold logged
  cases hline : Log.line? s.clock s.level level message data with
  | error fault =>
    exact absurd (Log.line?_eq_error plain hline).2 (Timestamp.text_ne_error now _)
  | ok line =>
    cases line with
    | none => exact ⟨s.events, rfl⟩
    | some line => exact ⟨s.events ++ [.logged line], rfl⟩

/-- A hook may throw what it likes. -/
theorem tellHook_of_dated (now : Timestamp.InRange s.clock) (name : String) (hook : Option Hook)
    (place : Nat) (event : Event) :
    ∃ events, s.tellHook name hook place event = ({ s with events }, none) := by
  unfold tellHook
  cases hook with
  | none => exact ⟨s.events, rfl⟩
  | some hook =>
    cases throws : hook.throws place with
    | none =>
      simp only [throws]
      exact ⟨s.events ++ [event], rfl⟩
    | some thrown =>
      simp only [throws]
      exact logged_of_dated (s := s.emit event) now (Log.isPlain_errorData _) _ _

theorem noteFailure_of_dated (now : Timestamp.InRange s.clock) (run : Nat) (job : Job)
    (ending : Ending) :
    ∃ events, s.noteFailure run job ending = ({ s.noteMessage run ending with events }, none) := by
  unfold noteFailure
  cases hending : ending.failure? with
  | none =>
    rw [noteMessage_eq_self hending]
    exact ⟨s.events, rfl⟩
  | some message =>
    have hnote : s.noteMessage run ending
        = s.modifyRun run fun r => { r with failures := r.failures ++ [message] } := by
      unfold noteMessage
      rw [hending]
      rfl
    rw [hnote]
    exact logged_of_dated (s := s.modifyRun run _) now (Log.isPlain_errorData _) _ _

/-- What has been told is nothing to the clock. -/
theorem look_events_eq (s : State) (events : List Event) :
    ({ s with events } : State).look = { s.look with events } := by
  unfold look
  dsimp only
  split <;> rfl

/-! ## Tasks -/

/-- **A task that starts enters its body.** -/
theorem startTask_of_dated (h : s.Dated) (number run : Nat) (job : Job) (waited : Number) :
    ∃ events, s.startTask number run job waited
      = ({ s.look with events } : State).enter number job { waited, started := s.look.clock } := by
  unfold startTask
  obtain ⟨events, hline⟩ := logged_of_dated h.now Log.isPlain_absent .debug (waitMessage job waited)
  rw [hline]
  obtain ⟨events', htold⟩ := tellHook_of_dated (s := { s with events }) h.now "onTaskStart"
    ((s.runs[run]?).bind (·.hooks.onStart)) job.place (.started number job.label job.name)
  refine ⟨events', ?_⟩
  dsimp only at htold ⊢
  rw [htold]
  dsimp only
  rw [look_events_eq]

/-- A granted job enters its body. -/
theorem start_of_dated (h : s.Dated) (hj : s.jobs[number]? = some job)
    (granted : job.phase = .granted) :
    ∃ events, s.start number
      = ({ s.looked job with events } : State).enter number job (s.timesOf job) := by
  unfold start timesOf looked
  simp only [hj, granted]
  cases job.run? with
  | none => exact ⟨_, rfl⟩
  | some run => exact startTask_of_dated h.look number run job (s.look.clock - job.submitted)

/-- **A task whose body has ended comes to its outcome.** -/
theorem wrapUpTask_of_dated (h : s.Dated) (number run : Nat) (job : Job) (times : Times)
    (ending : Ending) :
    ∃ events, s.wrapUpTask number run job times ending
      = ({ s.look.noteMessage run ending with events } : State).leave number
          (.outcome (s.look.outcomeOf job times ending)) := by
  unfold wrapUpTask
  obtain ⟨events, hnoted⟩ := noteFailure_of_dated h.look.now run job ending
  dsimp only
  rw [hnoted]
  obtain ⟨events', htold⟩ := tellHook_of_dated
    (s := { s.look.noteMessage run ending with events }) h.look.now "onTaskEnd"
    ((s.look.runs[run]?).bind (·.hooks.onEnd)) job.place
    (.ended number job.label job.name (s.look.outcomeOf job times ending))
  simp only [htold]
  exact ⟨events', rfl⟩

/-- The command of a task that is not aborted is asked for. -/
theorem enterCommand_of_dated (h : s.Dated) (number : Nat) {job : Job} (times : Times)
    (line : String) (quiet : Bool) (live : s.isAborted job = false) :
    ∃ events, s.enterCommand number job times line quiet =
      match (s.shell.child line).spawnError with
      | some message =>
        ({ s with events, spawned := s.spawned ++ [{ job := number, line, quiet }] } : State).settle
          number job times (.thrown (Fault.plain message).value)
      | none =>
        (({ s with events, spawned := s.spawned ++ [{ job := number, line, quiet }] } : State).run
          number times).addTimer (s.shell.child line).delay
            (.child number (s.shell.child line).report) := by
  unfold enterCommand
  obtain ⟨events, hline⟩ :=
    logged_of_dated h.now Log.isPlain_absent .debug (Command.startMessage line)
  rw [if_neg (by rw [live]; simp), hline]
  exact ⟨events, rfl⟩

/-! ## No task crashes -/

/-- No job has crashed, but those that had before. -/
def Unharmed (s t : State) : Prop :=
  ∀ i fault gone, t.exit? i = some (.crashed fault, gone) →
    ∃ earlier, s.exit? i = some (.crashed fault, earlier)

theorem Unharmed.of_exit? (h : ∀ i, t.exit? i = s.exit? i) : Unharmed s t :=
  fun i _ gone hcrashed => ⟨gone, (h i).symm.trans hcrashed⟩

theorem Noted.unharmed {times : Times} {ending : Ending} {result : Result}
    (h : Noted s number job times ending t result) (dated : s.Dated) (fault : Fault) :
    result ≠ .crashed fault := by
  cases h with
  | call => cases ending <;> simp [Result.ofCall]
  | outcome => simp
  | crashed _ _ _ _ refused =>
    rcases refused with refused | refused <;> exact absurd refused (dated.look.not_refuses _)

theorem Opening.unharmed {phase : Phase} (h : Opening s number job t phase) (dated : s.Dated)
    (fault : Fault) (gone : Bool) : phase.exit? ≠ some (.crashed fault, gone) := by
  cases h with
  | barred _ _ _ bars => exact absurd bars (dated.not_bars job)
  | running => simp [Phase.exit?]
  | @settled _ ending =>
    -- a direct call may have come to its result, which is no crash
    unfold Job.ended
    split
    · simp [Phase.exit?]
    · cases ending <;> simp [Phase.exit?, Result.ofCall]
  | @thrown mid _ value result _ _ time noted =>
    have hdated : mid.Dated := (dated.looked job).congr time
    intro heq
    exact noted.unharmed hdated fault (Prod.mk.inj (Option.some.inj heq)).1

/-- **No task crashes in a tick** while the clock shows a date. -/
theorem InLine.unharmed_tick (line : InLine capacity 0 s begun admitted) (dated : s.Dated) :
    Unharmed s s.tick := by
  have hticked := line.ticked
  generalize s.tick = t at hticked
  cases hticked with
  | quiet => exact .of_exit? fun _ => rfl
  | @started number job t phase _ job_eq _ opening =>
    have hjobs : t.jobs = s.jobs := opening.sameLine.jobs
    intro i fault gone hcrashed
    rw [exit?_place (s := t) (by rw [hjobs]; exact job_eq), exit?_congr hjobs] at hcrashed
    split at hcrashed
    · exact absurd hcrashed (opening.unharmed (s := s.popped) (dated.congr ⟨rfl, rfl⟩) fault gone)
    · exact ⟨gone, hcrashed⟩
  | @bounced number job t value queue job_eq granted bounced =>
    have hjobs : t.jobs = s.jobs := bounced.sameLine.jobs
    intro i fault gone hcrashed
    rw [(line.gaveUp queue job_eq granted bounced _).exit?_passOn,
      exit?_place (s := t) (by rw [hjobs]; exact job_eq), exit?_congr hjobs] at hcrashed
    split at hcrashed
    · exact absurd hcrashed (by simp [Phase.exit?, Result.ofCall])
    · exact ⟨gone, hcrashed⟩
  | @finished number job times ending t result _ job_eq _ noted =>
    have hjobs : t.jobs = s.jobs := noted.sameLine.jobs
    intro i fault gone hcrashed
    rw [exit?_place (s := t) (by rw [hjobs]; exact job_eq), exit?_congr hjobs] at hcrashed
    split at hcrashed
    · exact absurd (Prod.mk.inj (Option.some.inj hcrashed)).1
        (noted.unharmed (s := s.popped) (dated.congr ⟨rfl, rfl⟩) fault)
    · exact ⟨gone, hcrashed⟩
  | @released number job result queue job_eq leaving =>
    intro i fault gone hcrashed
    rw [exit?_congr (reportBack_keeps _ _ _).1, (line.leave queue job_eq leaving).exit?_passOn,
      exit?_place (s := s.popped) job_eq] at hcrashed
    -- the job that is finished had its result before
    split at hcrashed
    · next heq =>
      obtain rfl := (Prod.mk.inj (Option.some.inj hcrashed)).1
      refine ⟨false, ?_⟩
      rw [heq, exit?_of_job job_eq, leaving]
      rfl
    · exact ⟨gone, hcrashed⟩
  | concluded => exact .of_exit? fun i => exit?_congr (conclude_sameLine _ _).jobs i

/-! ## Time passes by looks at the clock -/

theorem Noted.time {times : Times} {ending : Ending} {result : Result}
    (h : Noted s number job times ending t result) : ∃ count, SameTime (s.looks count) t := by
  cases h with
  | call => exact ⟨0, .refl s⟩
  | outcome _ _ time => exact ⟨1, time⟩
  | crashed _ _ _ time => exact ⟨1, time⟩

theorem arm_time (s : State) (number : Nat) (body : Body) : SameTime s (s.arm number body) := by
  cases body <;> exact ⟨rfl, rfl⟩

theorem looks_looks (s : State) (first second : Nat) :
    (s.looks first).looks second = s.looks (first + second) := by
  induction first generalizing s with
  | zero => rw [Nat.zero_add]; rfl
  | succ first ih => rw [looks_succ, ih, Nat.succ_add, looks_succ]

theorem exists_looked (s : State) (job : Job) : ∃ count, s.looked job = s.looks count := by
  rcases looked_eq s job with h | h
  · exact ⟨2, h⟩
  · exact ⟨1, h⟩

theorem Opening.time {phase : Phase} (h : Opening s number job t phase) :
    ∃ count, SameTime (s.looks count) t := by
  obtain ⟨count, hlooked⟩ := exists_looked s job
  cases h with
  | barred _ time => exact ⟨1, time⟩
  | @running mid _ _ time => exact ⟨count, hlooked ▸ time.trans (arm_time mid number job.body)⟩
  | settled _ _ time => exact ⟨count, hlooked ▸ time⟩
  | thrown _ _ time noted =>
    -- the end of the body looks at the clock once more
    obtain ⟨more, hmore⟩ := noted.time
    refine ⟨count + more, SameTime.trans ?_ hmore⟩
    rw [← looks_looks, ← hlooked]
    exact time.looks more

theorem passOn_time (s : State) : SameTime s s.passOn := by
  cases hw : s.slots.waiters with
  | nil =>
    rw [passOn_of_idle hw]
    exact ⟨rfl, rfl⟩
  | cons next others =>
    rw [passOn_of_waiting hw]
    exact ⟨rfl, rfl⟩

theorem reportBack_time (s : State) (job : Job) (result : Result) :
    SameTime s (s.reportBack job result) := by
  rw [reportBack_eq]
  unfold blamed
  split <;> exact ⟨rfl, rfl⟩

theorem conclude_time (s : State) (number : Nat) :
    ∃ count, SameTime (s.looks count) (s.conclude number) := by
  unfold conclude
  split
  · exact ⟨0, .refl s⟩
  · split
    · exact ⟨0, .refl s⟩
    · exact ⟨1, ⟨rfl, rfl⟩⟩

/-- **While work is done, time only passes at looks at the clock.** -/
theorem Ticked.time (h : Ticked s t) : ∃ count, SameTime (s.looks count) t := by
  -- work that is taken from the queue takes no time by itself
  have hsame : SameTime s s.popped := ⟨rfl, rfl⟩
  have hpopped : ∀ count, SameTime (s.looks count) (s.popped.looks count) := hsame.looks
  cases h with
  | quiet => exact ⟨0, .refl s⟩
  | started _ _ _ opening =>
    obtain ⟨count, htime⟩ := opening.time
    exact ⟨count, (hpopped count).trans ⟨htime.clock, htime.lags⟩⟩
  | @bounced number job u value _ _ _ bounced =>
    obtain ⟨count, hlooked⟩ := exists_looked s.popped job
    refine ⟨count, (hpopped count).trans ?_⟩
    rw [← hlooked]
    have hplaced : SameTime u (u.place number
        (.finished (.ofCall (s.popped.timesOf job) (.thrown value)))) := ⟨rfl, rfl⟩
    exact bounced.time.trans (hplaced.trans (passOn_time _))
  | finished _ _ _ noted =>
    obtain ⟨count, htime⟩ := noted.time
    exact ⟨count, (hpopped count).trans ⟨htime.clock, htime.lags⟩⟩
  -- a release reads no clock
  | @released number job result _ _ _ =>
    have hplaced : SameTime s (s.popped.place number (.finished result)) := ⟨rfl, rfl⟩
    exact ⟨0, hplaced.trans ((passOn_time _).trans (reportBack_time _ _ _))⟩
  | concluded =>
    obtain ⟨count, htime⟩ := conclude_time s.popped _
    exact ⟨count, (hpopped count).trans htime⟩

/-- Without lags, time does not pass while work is done. -/
theorem Ticked.sameTime (h : Ticked s t) (unlagged : s.lags = []) : SameTime s t := by
  obtain ⟨count, htime⟩ := h.time
  rwa [looks_of_unlagged unlagged] at htime

theorem InLine.time_ticks (h : InLine capacity 0 s begun admitted) (unlagged : s.lags = [])
    (n : Nat) : SameTime s (s.after (List.replicate n .tick)) := by
  induction n generalizing s begun admitted with
  | zero => exact .refl s
  | succ n ih =>
    obtain ⟨begun', admitted', hnext⟩ := h.tick
    have htime := h.ticked.sameTime unlagged
    exact htime.trans (ih hnext (htime.lags.trans unlagged))

end State

end BoundedJobs
