import BoundedJobs.Proofs.Runner.Endings
import BoundedJobs.Proofs.Runner.Exits

/-!
# Children

A command asks for a child process when it starts. Pieces of work do no more than that about
children: what is heard from them and sent to them comes from outside.

* `State.children` — the children that a job has asked for;
* `State.Asks` — what pieces of work do about children: they ask for some, but never send a signal
  (`tick_asks`);
* `State.Launch` — how a command starts (`start_launch`): nothing is spawned once its run has been
  aborted;
* `State.CommandStep` — what a piece of work can mean for the job of a command, with the phase it
  has afterwards and the children it has asked for. `InLine.tick_command` says that it is always one
  of these.
-/

namespace BoundedJobs

/-- How the task of a command ends that starts after the abort of its run. -/
def Ending.skipped (line : String) : Ending :=
  .ofCommand (.ofCause line Fault.aborted.value)

theorem Ending.failure?_skipped (line : String) :
    (Ending.skipped line).effective.failure?
      = some ("Command \"" ++ line ++ "\" failed: This operation was aborted") := by
  have hfault : Command.fault line none none (some Fault.aborted.value)
      = .ok { kind := .command line none none, cause := some Fault.aborted.value,
              message := "Command \"" ++ line ++ "\" " ++ "failed: This operation was aborted" } :=
    rfl
  unfold Ending.skipped Command.Ending.ofCause
  rw [hfault]
  change some ("Command \"" ++ line ++ "\" " ++ "failed: This operation was aborted") = _
  rw [String.append_assoc, String.append_assoc, String.append_assoc]
  rfl

namespace State

variable {s t u : State} {number i : Nat} {job : Job} {line : String} {quiet : Bool}
  {asked more : List Spawn}

/-- The children that a job has asked for. -/
def children (s : State) (number : Nat) : List Spawn := s.spawned.filter (·.job = number)

/-- What the runs know of their aborts. -/
def signals (s : State) : List Signal := s.runs.map (·.signal)

theorem isAborted_eq (s : State) (job : Job) :
    s.isAborted job = true ↔ ∃ run, job.run? = some run ∧ s.signals[run]? = some .aborted := by
  unfold isAborted signals
  cases job.run? with
  | none => exact ⟨fun h => absurd h (by simp), fun ⟨_, h, _⟩ => absurd h (by simp)⟩
  | some run =>
    have hrun : (∃ other, some run = some other ∧ (s.runs.map (·.signal))[other]? = some .aborted) ↔
        (s.runs.map (·.signal))[run]? = some .aborted := by simp
    rw [hrun, List.getElem?_map, Option.bind_some]
    cases s.runs[run]? <;> simp

/-! ## What pieces of work do about children -/

/-- Between `s` and `t` children have been asked for, no child has been sent a signal, and no run
has been aborted. -/
structure Asks (s t : State) (asked : List Spawn) : Prop where
  spawned : t.spawned = s.spawned ++ asked
  signalled : t.signalled = s.signalled
  signals : t.signals = s.signals
  shell : t.shell = s.shell

/-- Nothing that has to do with children has changed. -/
theorem Asks.none (spawned : t.spawned = s.spawned) (signalled : t.signalled = s.signalled)
    (runs : t.runs = s.runs) (shell : t.shell = s.shell) : Asks s t [] :=
  ⟨spawned.trans (List.append_nil _).symm, signalled, congrArg (List.map Run.signal) runs, shell⟩

theorem Asks.trans (h : Asks s t asked) (h' : Asks t u more) : Asks s u (asked ++ more) where
  spawned := by rw [h'.spawned, h.spawned, List.append_assoc]
  signalled := h'.signalled.trans h.signalled
  signals := h'.signals.trans h.signals
  shell := h'.shell.trans h.shell

theorem Asks.then (h : Asks s t []) (h' : Asks t u asked) : Asks s u asked := h.trans h'

theorem Asks.children (h : Asks s t asked) (number : Nat) :
    t.children number = s.children number ++ asked.filter (·.job = number) := by
  unfold State.children
  rw [h.spawned, List.filter_append]

/-- A change of the data of one run but for its signal. -/
theorem modifyRun_asks (s : State) (run : Nat) {change : Run → Run}
    (keeps : ∀ r, (change r).signal = r.signal) : Asks s (s.modifyRun run change) [] := by
  refine ⟨(List.append_nil _).symm, rfl, ?_, rfl⟩
  unfold signals modifyRun
  refine List.ext_getElem? fun i => ?_
  simp only [List.getElem?_map, List.getElem?_modify]
  cases s.runs[i]? with
  | none => rfl
  | some r =>
    split
    · exact congrArg some (keeps r)
    · rfl

theorem logged_asks (s : State) (level : Log.Level) (message : String) (data : Value) :
    Asks s (s.logged level message data).1 [] := by
  unfold logged
  split <;> exact Asks.none rfl rfl rfl rfl

theorem look_asks (s : State) : Asks s s.look [] :=
  .none (look_spawned s) (look_signalled s) (look_runs s) (look_shell s)

theorem tellHook_asks (s : State) (hookName : String) (hook : Option Hook) (place : Nat)
    (event : Event) : Asks s (s.tellHook hookName hook place event).1 [] := by
  unfold tellHook
  have hemit : Asks s (s.emit event) [] := .none rfl rfl rfl rfl
  cases hook with
  | none => exact Asks.none rfl rfl rfl rfl
  | some hook =>
    simp only
    cases hook.throws place with
    | none => exact hemit
    | some thrown => exact hemit.then (logged_asks _ _ _ _)

theorem noteFailure_asks (s : State) (run : Nat) (job : Job) (ending : Ending) :
    Asks s (s.noteFailure run job ending).1 [] := by
  unfold noteFailure
  split
  · exact Asks.none rfl rfl rfl rfl
  · next message _ =>
    have hnoted : Asks s (s.modifyRun run fun r =>
        { r with failures := r.failures ++ [message] }) [] := modifyRun_asks s run fun _ => rfl
    exact hnoted.then (logged_asks _ _ _ _)

theorem wrapUp_asks (s : State) (number : Nat) (job : Job) (times : Times) (ending : Ending) :
    Asks s (s.wrapUp number job times ending) [] := by
  -- leaving only moves the job to its next phase
  have hleave : ∀ (t : State) (result : Result), Asks s t [] → Asks s (t.leave number result) [] :=
    fun t result h => h.then (.none rfl rfl rfl rfl)
  unfold wrapUp
  split
  · next run _ =>
    unfold wrapUpTask
    have hnoted := (look_asks s).then (noteFailure_asks s.look run job ending)
    dsimp only
    cases hn : s.look.noteFailure run job ending with
    | mk noted refused =>
      rw [hn] at hnoted
      -- a crash in the failure text or in the end hook ends the job in its place
      cases refused with
      | some fault => exact hleave _ _ hnoted
      | none =>
        have htold := hnoted.then (tellHook_asks noted "onTaskEnd"
          ((s.look.runs[run]?).bind (·.hooks.onEnd)) job.place
          (.ended number job.label job.name (s.look.outcomeOf job times ending)))
        dsimp only
        split
        · next told ht =>
          rw [ht] at htold
          exact hleave _ _ htold
        · next told fault ht =>
          rw [ht] at htold
          exact hleave _ _ htold
  · exact hleave _ _ (.none rfl rfl rfl rfl)

theorem passOn_asks (s : State) : Asks s s.passOn [] := by
  cases hw : s.slots.waiters with
  | nil =>
    rw [passOn_of_idle hw]
    exact Asks.none rfl rfl rfl rfl
  | cons next others =>
    rw [passOn_of_waiting hw]
    exact Asks.none rfl rfl rfl rfl

theorem bounce_asks (s : State) (number : Nat) (times : Times) (value : Value) :
    Asks s (s.bounce number times value) [] := by
  have hset : Asks s (s.setPhase number (.finished (.ofCall times (.thrown value)))) [] :=
    .none rfl rfl rfl rfl
  exact hset.then (passOn_asks _)

theorem reportBack_asks (s : State) (job : Job) (result : Result) :
    Asks s (s.reportBack job result) [] := by
  have hblamed : Asks s (s.blamed job result) [] := by
    unfold blamed
    split
    · exact modifyRun_asks s _ fun r => by split <;> rfl
    · exact Asks.none rfl rfl rfl rfl
  rw [reportBack_eq]
  exact hblamed.then (.none rfl rfl rfl rfl)

theorem conclude_asks (s : State) (number : Nat) : Asks s (s.conclude number) [] := by
  unfold conclude
  split
  · exact Asks.none rfl rfl rfl rfl
  · split
    · exact Asks.none rfl rfl rfl rfl
    · next run _ _ _ =>
      have hanswered : Asks s.look (s.look.modifyRun number fun r =>
          { r with answer := some (answerOf run (s.look.reportOf number run)) }) [] :=
        modifyRun_asks s.look number fun _ => rfl
      exact (look_asks s).then (hanswered.then (.none rfl rfl rfl rfl))

theorem finish_asks (s : State) (number : Nat) : Asks s (s.finish number) [] := by
  unfold finish
  split
  · exact Asks.none rfl rfl rfl rfl
  · split
    · exact wrapUp_asks s number _ _ _
    · exact Asks.none rfl rfl rfl rfl

theorem release_asks (s : State) (number : Nat) : Asks s (s.release number) [] := by
  unfold release
  split
  · exact Asks.none rfl rfl rfl rfl
  · split
    · next result _ =>
      have hset : Asks s (s.setPhase number (.finished result)) [] := .none rfl rfl rfl rfl
      exact (hset.then (passOn_asks _)).then (reportBack_asks _ _ _)
    · exact Asks.none rfl rfl rfl rfl

/-! ## Starts -/

/-- What the start of a command brings about: the next phase of its job, and the children that are
asked for. -/
inductive Launch (aborted : Bool) (number : Nat) (line : String) (quiet : Bool) :
    Phase → List Spawn → Prop
  /-- The body is not entered. -/
  | barred {fault : Fault} : Launch aborted number line quiet (.leaving (.crashed fault)) []
  /-- The run has been aborted. -/
  | skipped {times : Times} (stopped : aborted = true) :
      Launch aborted number line quiet (.settled times (Ending.skipped line).effective) []
  /-- The line about the command cannot be written. -/
  | refused {times : Times} {ending : Ending} (going : aborted = false) :
      Launch aborted number line quiet (.settled times ending) []
  /-- There is a child. -/
  | launched {times : Times} (going : aborted = false) :
      Launch aborted number line quiet (.running times) [{ job := number, line, quiet }]

/-- A command is started, and its child can be spawned. -/
theorem enterCommand_launch (hj : s.jobs[number]? = some job) (task : job.run? ≠ none)
    (spawns : (s.shell.child line).spawnError = none) (times : Times) (quiet : Bool) :
    ∃ phase asked, Launch (s.isAborted job) number line quiet phase asked ∧
      (s.enterCommand number job times line quiet).phase? number = some phase ∧
      Asks s (s.enterCommand number job times line quiet) asked := by
  unfold enterCommand
  simp only [settle_eq_place, ended_of_run? task]
  split
  · -- an aborted command is refused before anything is asked for
    next haborted =>
    exact ⟨_, _, .skipped haborted, phase?_place hj _, Asks.none rfl rfl rfl rfl⟩
  · next hgoing =>
    have hgoing' : s.isAborted job = false := (Bool.not_eq_true _).mp hgoing
    have hasks := logged_asks s .debug (Command.startMessage line) .absent
    have hbeside := logged_beside s .debug (Command.startMessage line) .absent
    split
    · -- the line about the start comes before the child, and may crash
      next v fault hl =>
      rw [hl] at hasks hbeside
      have hjv : v.jobs[number]? = some job := hbeside.jobs ▸ hj
      exact ⟨_, _, .refused hgoing', phase?_place hjv _, hasks.then (.none rfl rfl rfl rfl)⟩
    · next v hl =>
      rw [hl] at hasks hbeside
      have hjv : v.jobs[number]? = some job := hbeside.jobs ▸ hj
      have hspawns : (v.shell.child line).spawnError = none := hasks.shell ▸ spawns
      simp only [hspawns]
      exact ⟨.running times, _, .launched hgoing', phase?_place hjv _,
        hasks.then ⟨rfl, rfl, rfl, rfl⟩⟩

theorem enterCommand_asks (s : State) (number : Nat) (job : Job) (times : Times) (line : String)
    (quiet : Bool) :
    ∃ asked, Asks s (s.enterCommand number job times line quiet) asked ∧
      ∀ spawn ∈ asked, spawn.job = number := by
  have hnone : ∀ spawn ∈ ([] : List Spawn), spawn.job = number :=
    fun spawn hmem => absurd hmem List.not_mem_nil
  have hone : ∀ spawn ∈ [({ job := number, line, quiet } : Spawn)], spawn.job = number := by
    intro spawn hmem
    rw [List.mem_singleton.mp hmem]
  unfold enterCommand
  simp only [settle_eq_place]
  split
  · exact ⟨[], .none rfl rfl rfl rfl, hnone⟩
  · have hasks := logged_asks s .debug (Command.startMessage line) .absent
    split
    · next v fault hl =>
      rw [hl] at hasks
      exact ⟨[], hasks.then (.none rfl rfl rfl rfl), hnone⟩
    · next v hl =>
      rw [hl] at hasks
      split <;> exact ⟨_, hasks.then ⟨rfl, rfl, rfl, rfl⟩, hone⟩

/-- The only child that a body asks for when it is entered is its own. -/
theorem enter_asks (s : State) (number : Nat) (job : Job) (times : Times) :
    ∃ asked, Asks s (s.enter number job times) asked ∧ ∀ spawn ∈ asked, spawn.job = number := by
  have hemitted : Asks s (s.emit (s.entry number job)) [] := .none rfl rfl rfl rfl
  have hquiet : ∀ t, Asks s t [] →
      ∃ asked, Asks s t asked ∧ ∀ spawn ∈ asked, spawn.job = number :=
    fun t h => ⟨[], h, fun spawn hmem => absurd hmem List.not_mem_nil⟩
  unfold enter
  simp only [settle_eq_place]
  split
  · next line quiet _ =>
    obtain ⟨asked, hasked, hown⟩ :=
      enterCommand_asks (s.emit (s.entry number job)) number job times line quiet
    exact ⟨asked, hemitted.then hasked, hown⟩
  · split
    · exact hquiet _ (hemitted.then (wrapUp_asks _ _ _ _ _))
    · exact hquiet _ (hemitted.then (bounce_asks _ _ _ _))
  · exact hquiet _ (.none rfl rfl rfl rfl)
  · exact hquiet _ (.none rfl rfl rfl rfl)
  · split <;> exact hquiet _ (.none rfl rfl rfl rfl)
  · split <;> exact hquiet _ (.none rfl rfl rfl rfl)

/-- A granted job starts: it crashes, or its body is entered. What comes before has nothing to do
with children. -/
theorem start_cases (hj : s.jobs[number]? = some job) (granted : job.phase = .granted) :
    ∃ t, Asks s t [] ∧ t.jobs = s.jobs ∧
      ((∃ fault, s.start number = t.leave number (.crashed fault)) ∨
        ∃ times, s.start number = t.enter number job times) := by
  unfold start
  simp only [hj, granted]
  -- a task writes a line about its waiting and tells its hook; a direct call does neither
  split
  · next run _ =>
    unfold startTask
    have hasks := (look_asks s).then
      (logged_asks s.look .debug (waitMessage job (s.look.clock - job.submitted)) .absent)
    have hbeside := (look_beside s).trans
      (logged_beside s.look .debug (waitMessage job (s.look.clock - job.submitted)) .absent)
    split
    · next v fault hl =>
      rw [hl] at hasks hbeside
      exact ⟨v, hasks, hbeside.jobs, Or.inl ⟨fault, rfl⟩⟩
    · next v hl =>
      rw [hl] at hasks hbeside
      have hasks' := hasks.then (tellHook_asks v "onTaskStart"
        ((v.runs[run]?).bind (·.hooks.onStart)) job.place (.started number job.label job.name))
      have hbeside' := hbeside.trans (tellHook_beside v "onTaskStart"
        ((v.runs[run]?).bind (·.hooks.onStart)) job.place (.started number job.label job.name) rfl)
      simp only
      split
      · next w fault hw =>
        rw [hw] at hasks' hbeside'
        exact ⟨w, hasks', hbeside'.jobs, Or.inl ⟨fault, rfl⟩⟩
      · next w hw =>
        rw [hw] at hasks' hbeside'
        exact ⟨w.look, hasks'.then (look_asks w), (look_jobs w).trans hbeside'.jobs,
          Or.inr ⟨_, rfl⟩⟩
  · exact ⟨s.look.emit _, (look_asks s).then (.none rfl rfl rfl rfl), look_jobs s,
      Or.inr ⟨_, rfl⟩⟩

theorem start_asks (s : State) (number : Nat) :
    ∃ asked, Asks s (s.start number) asked ∧ ∀ spawn ∈ asked, spawn.job = number := by
  have hquiet : ∀ t, Asks s t [] →
      ∃ asked, Asks s t asked ∧ ∀ spawn ∈ asked, spawn.job = number :=
    fun t h => ⟨[], h, fun spawn hmem => absurd hmem List.not_mem_nil⟩
  by_cases hgranted : ∃ job, s.jobs[number]? = some job ∧ job.phase = .granted
  · obtain ⟨job, hj, hphase⟩ := hgranted
    obtain ⟨t, hasks, -, ⟨fault, hstart⟩ | ⟨times, hstart⟩⟩ := start_cases hj hphase
    · rw [hstart]
      exact hquiet _ (hasks.then (.none rfl rfl rfl rfl))
    · obtain ⟨asked, hasked, hown⟩ := enter_asks t number job times
      rw [hstart]
      exact ⟨asked, hasks.then hasked, hown⟩
  · -- a job in any other phase is left alone
    have hstart : s.start number = s := by
      unfold start
      split
      · rfl
      · next job hj =>
        split
        · next hphase => exact absurd ⟨job, hj, hphase⟩ hgranted
        · rfl
    rw [hstart]
    exact hquiet s (.none rfl rfl rfl rfl)

theorem isAborted_congr (signals : t.signals = s.signals) (job : Job) :
    t.isAborted job = s.isAborted job := by
  rw [Bool.eq_iff_iff, isAborted_eq, isAborted_eq, signals]

/-- **A command that starts** is launched in one of the ways of `Launch`. -/
theorem start_launch (hj : s.jobs[number]? = some job) (granted : job.phase = .granted)
    (task : job.run? ≠ none) (body : job.body = .command line quiet)
    (spawns : (s.shell.child line).spawnError = none) :
    ∃ phase asked, Launch (s.isAborted job) number line quiet phase asked ∧
      (s.start number).phase? number = some phase ∧ Asks s (s.start number) asked := by
  -- a start that crashes before the body asks for nothing
  obtain ⟨t, hasks, hjobs, ⟨fault, hstart⟩ | ⟨times, hstart⟩⟩ := start_cases hj granted
  · have hleft : (t.leave number (.crashed fault)).phase? number
        = some (.leaving (.crashed fault)) := phase?_place (s := t) (hjobs ▸ hj) _
    rw [hstart]
    exact ⟨_, _, .barred, hleft, hasks.then (.none rfl rfl rfl rfl)⟩
  · have hentered : t.enter number job times
        = (t.emit (t.entry number job)).enterCommand number job times line quiet := by
      unfold enter
      simp only [body]
      rfl
    have hemitted : Asks s (t.emit (t.entry number job)) [] :=
      hasks.then (.none rfl rfl rfl rfl)
    have hj' : (t.emit (t.entry number job)).jobs[number]? = some job := hjobs ▸ hj
    obtain ⟨phase, asked, hlaunch, hphase, hmore⟩ :=
      enterCommand_launch hj' task (hemitted.shell ▸ spawns) times quiet
    rw [isAborted_congr hemitted.signals] at hlaunch
    rw [hstart, hentered]
    exact ⟨phase, asked, hlaunch, hphase, hemitted.then hmore⟩

/-! ## Ticks -/

/-- **A piece of work asks for no child but that of the command it starts**, sends no signal and
aborts no run. -/
theorem tick_asks (s : State) :
    ∃ asked, Asks s s.tick asked ∧
      ∀ spawn ∈ asked, s.queue = .start spawn.job :: s.popped.queue := by
  -- only the start of a job can ask for a child, and only for this job
  have hquiet : ∀ t, Asks s.popped t [] → ∃ asked, Asks s t asked ∧
      ∀ spawn ∈ asked, s.queue = .start spawn.job :: s.popped.queue :=
    fun t h => ⟨[], ⟨h.spawned, h.signalled, h.signals, h.shell⟩,
      fun spawn hmem => absurd hmem List.not_mem_nil⟩
  cases hqueue : s.queue with
  | nil =>
    rw [tick_of_quiet hqueue]
    exact ⟨[], .none rfl rfl rfl rfl, fun spawn hmem => absurd hmem List.not_mem_nil⟩
  | cons work rest =>
    have hpopped : s.queue = work :: s.popped.queue := by
      unfold popped
      rw [hqueue]
      rfl
    have htick : s.tick = s.popped.perform work := tick_of_queue hpopped
    rw [htick, ← hqueue]
    cases work with
    | start other =>
      obtain ⟨asked, hasks, hown⟩ := start_asks s.popped other
      refine ⟨asked, ⟨hasks.spawned, hasks.signalled, hasks.signals, hasks.shell⟩, ?_⟩
      intro spawn hmem
      rw [hown spawn hmem]
      exact hpopped
    | finish other => exact hquiet _ (finish_asks _ _)
    | release other => exact hquiet _ (release_asks _ _)
    | conclude run => exact hquiet _ (conclude_asks _ _)

/-- What a piece of work can mean for the job of a command: the phase it has afterwards, and the
children that it has asked for. -/
inductive CommandStep (s : State) (number : Nat) (job : Job) (line : String) (quiet : Bool) :
    Phase → List Spawn → Prop
  /-- The work is about another job, or the job stays in its phase. -/
  | still : CommandStep s number job line quiet job.phase []
  /-- A slot passes to it. -/
  | admitted (waiting : job.phase = .waiting) : CommandStep s number job line quiet .granted []
  | started {phase : Phase} {asked : List Spawn} (granted : job.phase = .granted)
      (launch : Launch (s.isAborted job) number line quiet phase asked) :
      CommandStep s number job line quiet phase asked
  /-- Its end is noted. -/
  | noted {times : Times} {ending : Ending} {result : Result}
      (settled : job.phase = .settled times ending)
      (comes : ∀ run, job.run? = some run → (∃ fault, result = .crashed fault) ∨
        result = .outcome (s.look.outcomeOf job times ending)) :
      CommandStep s number job line quiet (.leaving result) []
  | released {result : Result} (leaving : job.phase = .leaving result) :
      CommandStep s number job line quiet (.finished result) []

variable {capacity spare begun admitted : Nat}

theorem Noted.comes {times : Times} {ending : Ending} {result : Result} {run : Nat}
    (h : Noted s number job times ending t result) (task : job.run? = some run) :
    (∃ fault, result = .crashed fault) ∨ result = .outcome (s.look.outcomeOf job times ending) := by
  cases h with
  | call direct => exact absurd (direct.symm.trans task) (by simp)
  | outcome => exact Or.inr rfl
  | crashed => exact Or.inl ⟨_, rfl⟩

/-- A slot that passes on goes to a job that waits. -/
theorem InLine.phase?_passOn (h : InLine capacity spare s begun admitted) (i : Nat) :
    s.passOn.phase? i = s.phase? i ∨
      s.phase? i = some .waiting ∧ s.passOn.phase? i = some .granted := by
  cases hw : s.slots.waiters with
  | nil =>
    rw [passOn_of_idle hw]
    exact Or.inl rfl
  | cons next others =>
    obtain ⟨job, hnext, hphase⟩ := h.job_of_waiter hw
    rw [passOn_of_waiting hw]
    by_cases heq : i = next
    · subst heq
      refine Or.inr ⟨(phase?_of_job hnext).trans (congrArg some hphase), ?_⟩
      exact phase?_place (s := { s with slots := { s.slots with waiters := others } }) hnext _
    · exact Or.inl (phase?_place_ne heq _ _)

/-- At its own start, a command is launched. -/
theorem InLine.tick_ownStart (h : InLine capacity 0 s begun admitted)
    (hj : s.jobs[number]? = some job) (task : job.run? ≠ none)
    (body : job.body = .command line quiet) (spawns : (s.shell.child line).spawnError = none)
    (hqueue : s.queue = .start number :: s.popped.queue) :
    ∃ phase asked, CommandStep s number job line quiet phase asked ∧
      s.tick.phase? number = some phase ∧
      s.tick.children number = s.children number ++ asked := by
  have hmem : .start number ∈ s.queue := by
    rw [hqueue]
    exact List.mem_cons_self
  have hgranted : job.phase = .granted := by
    obtain ⟨other, hother, hwork⟩ := h.job_of_mem hmem rfl
    obtain rfl := Option.some.inj (hj.symm.trans hother)
    cases hp : job.phase <;> rw [hp] at hwork <;> simp [Phase.work?] at hwork ⊢
  have htick : s.tick = s.popped.start number := tick_of_queue hqueue
  obtain ⟨phase, asked, hlaunch, hphase, hasks⟩ :=
    start_launch (s := s.popped) hj hgranted task body spawns
  refine ⟨phase, asked, .started hgranted hlaunch, htick ▸ hphase, ?_⟩
  rw [htick, hasks.children]
  -- whatever it has asked for is its own
  congr 1
  rw [List.filter_eq_self]
  intro spawn hspawn
  cases hlaunch with
  | launched => rw [List.mem_singleton.mp hspawn]; exact decide_eq_true rfl
  | barred | skipped | refused => exact absurd hspawn List.not_mem_nil

/-- Any other work asks for no child of the command. -/
theorem tick_children (hqueue : s.queue ≠ .start number :: s.popped.queue) :
    s.tick.children number = s.children number := by
  obtain ⟨asked, hasks, hown⟩ := tick_asks s
  rw [hasks.children, List.filter_eq_nil_iff.mpr, List.append_nil]
  intro spawn hspawn heq
  rw [← of_decide_eq_true heq] at hqueue
  exact hqueue (hown spawn hspawn)

/-- What any other work does to the command. -/
theorem InLine.tick_otherWork (h : InLine capacity 0 s begun admitted)
    (hj : s.jobs[number]? = some job) (hqueue : s.queue ≠ .start number :: s.popped.queue) :
    ∃ phase, CommandStep s number job line quiet phase [] ∧
      s.tick.phase? number = some phase := by
  have hold := phase?_of_job hj
  have hplace : ∀ {other : Nat} {u : State}, u.jobs = s.jobs → other ≠ number →
      ∀ phase, (u.place other phase).phase? number = some job.phase := by
    intro other u hjobs hne phase
    rw [phase?_place_ne (Ne.symm hne), phase?_congr hjobs, hold]
  have hticked := h.ticked
  generalize s.tick = t at hticked
  cases hticked with
  | quiet => exact ⟨_, .still, hold⟩
  | @started other _ _ _ queue _ _ opening =>
    refine ⟨_, .still, hplace opening.sameLine.jobs ?_ _⟩
    rintro rfl
    exact hqueue queue
  | @bounced other old u value queue job_eq granted bounced =>
    -- the slot of a call that is over at once may go to the command
    have hne : other ≠ number := by
      rintro rfl
      exact hqueue queue
    have hpassed := (h.gaveUp queue job_eq granted bounced
      (.ofCall (s.popped.timesOf old) (.thrown value))).phase?_passOn number
    rw [hplace bounced.sameLine.jobs hne] at hpassed
    rcases hpassed with hsame | ⟨hwaiting, hgranted⟩
    · exact ⟨_, .still, hsame⟩
    · exact ⟨_, .admitted (Option.some.inj hwaiting), hgranted⟩
  | @finished other old _ _ u result _ job_eq settled noted =>
    by_cases heq : other = number
    · subst heq
      obtain rfl := Option.some.inj (hj.symm.trans job_eq)
      refine ⟨.leaving result, .noted settled fun run hrun => ?_, ?_⟩
      · have hcomes := noted.comes hrun
        rw [look_popped] at hcomes
        exact hcomes
      · exact phase?_place (s := u) (noted.sameLine.jobs ▸ hj) _
    · exact ⟨_, .still, hplace noted.sameLine.jobs heq _⟩
  | @released other old result queue job_eq leaving =>
    -- a slot given back goes to the first job that waits, which may be the command
    rw [phase?_congr (reportBack_keeps _ _ _).1]
    have hpassed := (h.leave queue job_eq leaving).phase?_passOn number
    by_cases heq : other = number
    · subst heq
      obtain rfl := Option.some.inj (hj.symm.trans job_eq)
      have hself : (s.popped.place other (.finished result)).phase? other
          = some (.finished result) := phase?_place (s := s.popped) hj _
      rw [hself] at hpassed
      refine ⟨_, .released leaving, hpassed.resolve_right fun hwaiting => ?_⟩
      exact absurd hwaiting.1 (by simp)
    · rw [hplace (u := s.popped) rfl heq] at hpassed
      rcases hpassed with hsame | ⟨hwaiting, hgranted⟩
      · exact ⟨_, .still, hsame⟩
      · exact ⟨_, .admitted (Option.some.inj hwaiting), hgranted⟩
  | concluded =>
    rw [phase?_congr (conclude_sameLine _ _).jobs]
    exact ⟨_, .still, hold⟩

/-- **What a piece of work means for the job of a command.** -/
theorem InLine.tick_command (h : InLine capacity 0 s begun admitted)
    (hj : s.jobs[number]? = some job) (task : job.run? ≠ none)
    (body : job.body = .command line quiet) (spawns : (s.shell.child line).spawnError = none) :
    ∃ phase asked, CommandStep s number job line quiet phase asked ∧
      s.tick.phase? number = some phase ∧
      s.tick.children number = s.children number ++ asked := by
  by_cases hqueue : s.queue = .start number :: s.popped.queue
  · exact h.tick_ownStart hj task body spawns hqueue
  · obtain ⟨phase, hstep, hphase⟩ := h.tick_otherWork hj hqueue
    refine ⟨phase, [], hstep, hphase, ?_⟩
    rw [tick_children hqueue, List.append_nil]

end State

end BoundedJobs
