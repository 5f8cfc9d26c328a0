import BoundedJobs.Proofs.Runner.Dated
import BoundedJobs.Proofs.Runner.Outline

/-!
# Work in outline

What a piece of work leaves of a state can be told in outline from the outline of the state before
it, while the clock shows a date. A line that cannot be written would end a task early, and whether
a line is due depends on endings and hooks.

* `State.resultOf` — the result that a job comes to when no line fails, and `State.atEnd`, the state
  at the moment at which it does;
* `outline_start`, `outline_finish`, `outline_release`, `outline_conclude` — the four kinds of work;
* `outline_tick` — a tick in outline.
-/

namespace BoundedJobs

namespace State

variable {s t : State} {number run : Nat} {job : Job}

variable (suspect : Nat → Bool)

theorem outline_noteMessage (s : State) (run : Nat) (ending : Ending) :
    (s.noteMessage run ending).outline suspect = s.outline suspect := by
  have hkept : ∀ r : Run,
      ({ r with failures := r.failures ++ ending.failure?.toList } : Run).outline
        = id r.outline := fun _ => rfl
  refine (outline_modifyRun suspect s run hkept).trans ?_
  unfold modifyRun
  rw [List.modify_id]

/-- The state at the moment at which the end of a job's body is noted. The end of a task is looked
up on the clock. -/
def atEnd (s : State) (job : Job) : State :=
  match job.run? with
  | some _ => s.look
  | none => s

theorem outline_atEnd (s : State) (job : Job) (known : Bool) :
    (s.atEnd job).outline suspect = (s.outline suspect).atEnd (job.outline known) := by
  have hrun : (job.outline known).run? = job.run? := rfl
  unfold atEnd
  rw [hrun]
  cases job.run? with
  | none => rfl
  | some run => exact outline_look suspect s

/-- The result that a job comes to while the clock shows a date. -/
def resultOf (s : State) (job : Job) (times : Times) (ending : Ending) : Result :=
  match job.run? with
  | some _ => .outcome (s.look.outcomeOf job times ending)
  | none => .ofCall times ending

/-- The result of a job shows in its outline as far as that of its ending goes. -/
theorem resultOf_outline (s : State) (job : Job) (times : Times) (ending : Ending) (known : Bool) :
    ((s.outline suspect).resultOf (job.outline known) times (ending.outline known)).outline known
      = (s.resultOf job times ending).outline known := by
  have hrun : (job.outline known).run? = job.run? := rfl
  unfold resultOf
  rw [hrun]
  cases job.run? with
  | none =>
    dsimp only
    rw [Result.outline_ofCall, Result.outline_ofCall, Ending.outline_outline]
  | some run =>
    dsimp only
    rw [← outline_look]
    cases known <;> rfl

/-- An outline is dated if the state is. -/
theorem Clocked.outline (h : s.Dated) : (s.outline suspect).Dated := h.congr ⟨rfl, rfl⟩

theorem outline_wrapUp (dated : s.Dated) (number : Nat) (job : Job) (times : Times)
    (ending : Ending) :
    (s.wrapUp number job times ending).outline suspect
      = ((s.atEnd job).outline suspect).leave number
          ((s.resultOf job times ending).outline (suspect number)) := by
  unfold wrapUp resultOf atEnd
  cases job.run? with
  | none => exact outline_leave suspect s number _
  | some run =>
    obtain ⟨events, hwrap⟩ := wrapUpTask_of_dated dated number run job times ending
    simp only [hwrap]
    rw [outline_leave]
    exact congrArg (leave · number _) (outline_noteMessage suspect s.look run ending)

/-- A body is entered, and whether its run is aborted is known. -/
def enterBody (s : State) (number : Nat) (job : Job) (times : Times) (aborted : Bool) :
    Body → State
  | .command line quiet => s.enterCommand number job times line quiet
  | .immediate (.thrown value) =>
    if job.relays then s.wrapUp number job times (.thrown value) else s.bounce number times value
  | .immediate ending => s.settle number job times ending
  | .prompt ending => s.settle number job times ending
  | .timed delay ending onAbort =>
    match aborted, onAbort with
    | true, some early => s.settle number job times early
    | _, _ => (s.run number times).addTimer delay (.settle number ending)
  | .manual onAbort =>
    match aborted, onAbort with
    | true, some early => s.settle number job times early
    | _, _ => (s.run number times).giveHandle number

theorem enter_eq (s : State) (number : Nat) (job : Job) (times : Times) :
    s.enter number job times
      = (s.emit (s.entry number job)).enterBody number job times (s.isAborted job) job.body := by
  unfold enter
  cases job.body with
  | immediate ending => cases ending <;> rfl
  | command | prompt | timed | manual => rfl

theorem outline_enterCommand (dated : s.Dated) (number : Nat) (job : Job) (known : Bool)
    (times : Times) (line : String) (quiet : Bool) :
    (s.enterCommand number job times line quiet).outline suspect
      = ((s.outline suspect).enterCommand number (job.outline known) times line quiet).outline
          suspect := by
  have haborted := isAborted_outline suspect s job known
  cases h : s.isAborted job with
  | true =>
    rw [h] at haborted
    unfold enterCommand
    rw [if_pos h, if_pos haborted, outline_settle suspect _ number job known,
      outline_settle suspect _ number _ known, outline_outline, job.outline_outline]
  | false =>
    rw [h] at haborted
    obtain ⟨events, hasked⟩ := enterCommand_of_dated dated number times line quiet h
    obtain ⟨events', hasked'⟩ :=
      enterCommand_of_dated (s := s.outline suspect) (dated.outline suspect) number times line quiet
        haborted
    rw [hasked, hasked']
    -- the child is asked for in both states
    let spawned := s.spawned ++ [{ job := number, line, quiet }]
    have hspawned : ({ s.outline suspect with events := events', spawned } : State).outline suspect
        = ({ s with events, spawned } : State).outline suspect :=
      outline_outline suspect { s with events, spawned }
    have hchild : ((s.outline suspect).shell.child line).spawnError
        = (s.shell.child line).spawnError := rfl
    rw [hchild]
    cases (s.shell.child line).spawnError with
    | some message =>
      dsimp only
      rw [outline_settle suspect _ number job known, outline_settle suspect _ number _ known,
        job.outline_outline]
      exact congrArg (settle · number _ times _) hspawned.symm
    | none =>
      dsimp only
      rw [outline_addTimer, outline_addTimer, outline_run, outline_run]
      exact congrArg (fun t : State => (t.run number times).addTimer _ _) hspawned.symm

/-- Two jobs with one outline settle in states with one outline, with endings that are alike. -/
theorem outline_settle_outline (number : Nat) (job : Job) (times : Times) {ending ending' : Ending}
    (same : ending'.outline (suspect number) = ending.outline (suspect number)) :
    (s.settle number job times ending).outline suspect
      = ((s.outline suspect).settle number (job.outline (suspect number)) times
          ending').outline suspect := by
  rw [outline_settle suspect _ number job (suspect number),
    outline_settle suspect _ number _ (suspect number), outline_outline, job.outline_outline, same]

/-- A body that throws at once ends without having been in progress. -/
theorem outline_enterBody_thrown (dated : s.Dated) (number : Nat) (job : Job) (times : Times)
    (aborted : Bool) (value : Value) :
    (s.enterBody number job times aborted (.immediate (.thrown value))).outline suspect
      = ((s.outline suspect).enterBody number (job.outline (suspect number)) times aborted
          ((Body.immediate (.thrown value)).outline (suspect number))).outline suspect := by
  have hwrap : (s.wrapUp number job times (.thrown value)).outline suspect
      = ((s.outline suspect).wrapUp number (job.outline (suspect number)) times
          ((Ending.thrown value).outline (suspect number))).outline suspect := by
    rw [outline_wrapUp suspect dated,
      outline_wrapUp (s := s.outline suspect) suspect (dated.outline suspect), resultOf_outline,
      ← outline_atEnd, outline_outline]
  have hthrown : ∃ value', (Body.immediate (.thrown value)).outline (suspect number)
        = .immediate (.thrown value') ∧
      (Ending.thrown value).outline (suspect number) = .thrown value' ∧
      (Result.threw value').outline (suspect number)
        = (Result.threw value).outline (suspect number) := by
    cases suspect number with
    | false => exact ⟨value, rfl, rfl, rfl⟩
    | true => exact ⟨_, rfl, rfl, rfl⟩
  obtain ⟨value', hbody, hending, hresult⟩ := hthrown
  rw [hbody]
  change State.outline suspect (if job.relays then _ else _)
    = State.outline suspect (if job.relays then _ else _)
  split
  · exact hwrap.trans (by rw [hending])
  · -- the slot of a direct call comes back in the same step
    rw [outline_bounce, outline_bounce, outline_outline, hresult]

/-- Two bodies with one outline are entered in states with one outline. -/
theorem outline_enterBody (dated : s.Dated) (number : Nat) (job : Job) (times : Times)
    (aborted : Bool) (body : Body) :
    (s.enterBody number job times aborted body).outline suspect
      = ((s.outline suspect).enterBody number (job.outline (suspect number)) times aborted
          (body.outline (suspect number))).outline suspect := by
  cases body with
  | command line quiet =>
    rw [Body.outline_command]
    exact outline_enterCommand suspect dated number job (suspect number) times line quiet
  | prompt ending =>
    rw [Body.outline_prompt]
    exact outline_settle_outline suspect number job times (ending.outline_outline _)
  | immediate ending =>
    cases ending with
    | returned value =>
      -- a suspect that returns at once is one whose promise has settled
      have hreturned : (s.outline suspect).enterBody number (job.outline (suspect number)) times
          aborted ((Body.immediate (.returned value)).outline (suspect number))
          = (s.outline suspect).settle number (job.outline (suspect number)) times
              ((Ending.returned value).outline (suspect number)) := by
        cases suspect number <;> rfl
      rw [hreturned]
      exact outline_settle_outline suspect number job times (Ending.outline_outline _ _)
    | thrown value => exact outline_enterBody_thrown suspect dated number job times aborted value
  | timed delay ending onAbort =>
    have htimed : ((s.run number times).addTimer delay (.settle number ending)).outline suspect
        = (((s.outline suspect).run number times).addTimer delay
            (.settle number (ending.outline (suspect number)))).outline suspect := by
      rw [outline_addTimer, outline_addTimer, outline_run, outline_run, outline_outline]
      exact congrArg (fun e => State.addTimer _ delay (.settle number e))
        (ending.outline_outline _).symm
    rw [Body.outline_timed]
    cases aborted with
    | false => exact htimed
    | true =>
      -- a body that heeds aborts settles at once
      cases onAbort with
      | none => exact htimed
      | some early =>
        exact outline_settle_outline suspect number job times (early.outline_outline _)
  | manual onAbort =>
    have hmanual : ((s.run number times).giveHandle number).outline suspect
        = (((s.outline suspect).run number times).giveHandle number).outline suspect := by
      change ((s.run number times).outline suspect).giveHandle number
        = (((s.outline suspect).run number times).outline suspect).giveHandle number
      rw [outline_run, outline_run, outline_outline]
    rw [Body.outline_manual]
    cases aborted with
    | false => exact hmanual
    | true =>
      cases onAbort with
      | none => exact hmanual
      | some early =>
        exact outline_settle_outline suspect number job times (early.outline_outline _)

theorem outline_enter (dated : s.Dated) (number : Nat) (job : Job) (times : Times) :
    (s.enter number job times).outline suspect
      = ((s.outline suspect).enterBody number (job.outline (suspect number)) times
          (s.isAborted job) (job.body.outline (suspect number))).outline suspect := by
  rw [enter_eq]
  exact outline_enterBody (s := s.emit (s.entry number job)) suspect (dated.congr ⟨rfl, rfl⟩) number
    job times _ _

/-- Two jobs with one outline enter their bodies in states with one outline. -/
theorem outline_enter_outline (dated : s.Dated) (events events' : List Event) (number : Nat)
    (job : Job) (times : Times) :
    (({ s with events } : State).enter number job times).outline suspect
      = (({ s.outline suspect with events := events' } : State).enter number
          (job.outline (suspect number)) times).outline suspect := by
  have hfirst := outline_enter (s := { s with events }) suspect (dated.congr ⟨rfl, rfl⟩) number job
    times
  -- the outline of an outline is the outline, so both sides come to the same term
  have hsecond := outline_enter (s := { s.outline suspect with events := events' }) suspect
    (dated.congr ⟨rfl, rfl⟩) number (job.outline (suspect number)) times
  have haborted : ({ s.outline suspect with events := events' } : State).isAborted
      (job.outline (suspect number)) = s.isAborted job :=
    isAborted_outline suspect s job (suspect number)
  have hevents : ({ s.outline suspect with events := events' } : State).outline suspect
      = s.outline suspect := outline_outline suspect s
  have hbody : (job.outline (suspect number)).body.outline (suspect number)
      = job.body.outline (suspect number) := job.body.outline_outline _
  rw [haborted, hevents, job.outline_outline, hbody] at hsecond
  exact hfirst.trans hsecond.symm

/-- The state in which a body is entered, in outline. -/
theorem outline_looked (s : State) (job : Job) (known : Bool) :
    (s.looked job).outline suspect = (s.outline suspect).looked (job.outline known) := by
  have hrun : (job.outline known).run? = job.run? := rfl
  unfold looked
  rw [hrun]
  cases job.run? with
  | none => exact outline_look suspect s
  | some run =>
    dsimp only
    rw [outline_look, outline_look]

/-- A job starts at the same moment in the outline. -/
theorem timesOf_outline (s : State) (job : Job) (known : Bool) :
    (s.outline suspect).timesOf (job.outline known) = s.timesOf job := by
  unfold timesOf
  rw [← outline_looked, ← outline_look]
  rfl

theorem outline_start (dated : s.Dated) (number : Nat) :
    (s.start number).outline suspect = ((s.outline suspect).start number).outline suspect := by
  have hjobs := outline_jobs suspect s number
  have hself := (outline_outline suspect s).symm
  cases hj : s.jobs[number]? with
  | none =>
    rw [hj] at hjobs
    unfold start
    rw [hj, hjobs]
    exact hself
  | some job =>
    rw [hj] at hjobs
    cases hphase : job.phase with
    | granted =>
      have hphase' : (job.outline (suspect number)).phase = .granted :=
        congrArg (Phase.outline _) hphase
      -- both starts come to their bodies, which the outline has made alike
      obtain ⟨events, hstart⟩ := start_of_dated dated hj hphase
      obtain ⟨events', hstart'⟩ :=
        start_of_dated (s := s.outline suspect) (dated.outline suspect) hjobs hphase'
      rw [hstart, hstart', timesOf_outline, ← outline_looked]
      exact outline_enter_outline suspect (dated.looked job) _ _ number job _
    | waiting | running | settled | leaving | finished =>
      unfold start
      simp only [hj, hjobs, Option.map_some, Job.outline, hphase, Phase.outline]
      exact hself

theorem outline_finish (dated : s.Dated) (number : Nat) :
    (s.finish number).outline suspect = ((s.outline suspect).finish number).outline suspect := by
  have hjobs := outline_jobs suspect s number
  have hself := (outline_outline suspect s).symm
  unfold finish
  cases hj : s.jobs[number]? with
  | none =>
    rw [hj] at hjobs
    rw [hjobs]
    exact hself
  | some job =>
    rw [hj] at hjobs
    cases hphase : job.phase with
    | settled times ending =>
      have hphase' : (job.outline (suspect number)).phase
          = .settled times (ending.outline (suspect number)) := congrArg (Phase.outline _) hphase
      -- the outline of an outline is the outline, so the second side is wrapped up alike
      have hsecond := outline_wrapUp (s := s.outline suspect) suspect (dated.outline suspect) number
        (job.outline (suspect number)) times (ending.outline (suspect number))
      rw [← outline_atEnd, outline_outline, resultOf_outline] at hsecond
      simp only [hjobs, Option.map_some, hphase, hphase']
      exact (outline_wrapUp suspect dated number job times ending).trans hsecond.symm
    | waiting | granted | running | leaving | finished =>
      simp only [hjobs, Option.map_some, Job.outline, hphase, Phase.outline]
      exact hself

theorem outline_blamed (s : State) (job : Job) (result : Result) (known : Bool) :
    (s.blamed job result).outline suspect
      = ((s.outline suspect).blamed (job.outline known) (result.outline known)).outline
          suspect := by
  have hself := (outline_outline suspect s).symm
  have hrun : (job.outline known).run? = job.run? := rfl
  unfold blamed
  rw [hrun]
  cases job.run? with
  | none => exact hself
  | some run =>
    cases result with
    | outcome => exact hself
    | returned | threw => cases known <;> exact hself
    | crashed fault =>
      -- the outline of an answer does not tell one fault from another
      have hanswered : ∀ t : State, (t.modifyRun run fun r =>
            if r.answer.isNone then { r with answer := some (.error fault) } else r).outline suspect
          = (t.outline suspect).modifyRun run fun r =>
              if r.answer.isNone then { r with answer := some (.ok default) } else r := by
        intro t
        refine outline_modifyRun suspect t run fun r => ?_
        cases hanswer : r.answer <;> simp [Run.outline, hanswer]
      change State.outline suspect (s.modifyRun run _)
        = State.outline suspect ((s.outline suspect).modifyRun run _)
      rw [hanswered, hanswered, outline_outline]

/-- What a run makes of the result of a job: it only matters whether that is a crash. -/
theorem outline_reportBack (s : State) (job : Job) (result : Result) (known : Bool) :
    (s.reportBack job result).outline suspect
      = ((s.outline suspect).reportBack (job.outline known) (result.outline known)).outline
          suspect := by
  have hblamed := outline_blamed suspect s job result known
  -- the run is complete or not, whatever its failures say
  have hclosing : (s.blamed job result).closing job
      = ((s.outline suspect).blamed (job.outline known) (result.outline known)).closing
          (job.outline known) := by
    have hrun : (job.outline known).run? = job.run? := rfl
    unfold closing
    rw [hrun]
    cases job.run? with
    | none => rfl
    | some run =>
      dsimp only
      rw [← isComplete_outline suspect (s.blamed job result), hblamed, isComplete_outline]
  rw [reportBack_eq, reportBack_eq, ← hclosing]
  exact congrArg (fun t : State => { t with queue := t.queue ++ (s.blamed job result).closing job })
    hblamed

theorem outline_release (s : State) (number : Nat) :
    (s.release number).outline suspect = ((s.outline suspect).release number).outline suspect := by
  have hjobs := outline_jobs suspect s number
  have hself := (outline_outline suspect s).symm
  cases hj : s.jobs[number]? with
  | none =>
    rw [hj] at hjobs
    unfold release
    rw [hj, hjobs]
    exact hself
  | some job =>
    rw [hj] at hjobs
    cases hphase : job.phase with
    | leaving result =>
      have hphase' : (job.outline (suspect number)).phase
          = .leaving (result.outline (suspect number)) := congrArg (Phase.outline _) hphase
      -- the slot passes on whatever the result was
      have hpassed : ((s.setPhase number (.finished result)).passOn).outline suspect
          = ((s.outline suspect).setPhase number
              (.finished (result.outline (suspect number)))).passOn := by
        rw [outline_passOn, outline_setPhase]
        rfl
      rw [release_eq hj hphase, release_eq (s := s.outline suspect) hjobs hphase', ← hpassed]
      exact outline_reportBack suspect _ job result (suspect number)
    | waiting | granted | running | settled | finished =>
      unfold release
      simp only [hj, hjobs, Option.map_some, Job.outline, hphase, Phase.outline]
      exact hself

theorem outline_conclude (s : State) (run : Nat) :
    (s.conclude run).outline suspect = ((s.outline suspect).conclude run).outline suspect := by
  have hruns := outline_runs suspect s run
  by_cases hopen : ∃ r, s.runs[run]? = some r ∧ r.answer = none
  · obtain ⟨r, hr, hanswer⟩ := hopen
    rw [hr] at hruns
    -- whatever the report says, there is one more
    have hconcluded : ∀ (t : State) (answer : Except Fault Report),
        ({ t.modifyRun run fun r => { r with answer := some answer } with
          reports := t.reports + 1 } : State).outline suspect
          = { (t.outline suspect).modifyRun run fun r =>
                { r with answer := some (.ok default) } with reports := t.reports + 1 } := by
      intro t answer
      have hmodified : (t.modifyRun run fun r => { r with answer := some answer }).outline suspect
          = (t.outline suspect).modifyRun run fun r => { r with answer := some (.ok default) } :=
        outline_modifyRun suspect t run fun _ => rfl
      exact congrArg (fun u : State => { u with reports := t.reports + 1 }) hmodified
    have hanswer' : r.outline.answer = none := by
      unfold Run.outline
      rw [hanswer]
      rfl
    have hreports : ∀ t : State, t.reports = t.look.reports := fun t => (look_reports t).symm
    rw [conclude_eq hr hanswer, conclude_eq (s := s.outline suspect) hruns hanswer',
      hreports s, hreports (s.outline suspect), hconcluded, hconcluded, ← outline_look,
      outline_outline]
    rfl
  · have hanswered : ∀ r, s.runs[run]? = some r → r.answer ≠ none :=
      fun r hr hanswer => hopen ⟨r, hr, hanswer⟩
    have hanswered' : ∀ r, (s.outline suspect).runs[run]? = some r → r.answer ≠ none := by
      intro r hr hanswer
      rw [hruns] at hr
      obtain ⟨r', hr', rfl⟩ := Option.map_eq_some_iff.mp hr
      exact hanswered r' hr' (Option.map_eq_none_iff.mp hanswer)
    rw [conclude_eq_self hanswered, conclude_eq_self (s := s.outline suspect) hanswered',
      outline_outline]

/-- **A piece of work shows in the outline as far as the outline before it goes**, while the clock
shows a date. -/
theorem outline_tick (dated : s.Dated) :
    s.tick.outline suspect = (s.outline suspect).tick.outline suspect := by
  cases hqueue : s.queue with
  | nil =>
    rw [tick_of_quiet hqueue, tick_of_quiet (s := s.outline suspect) hqueue, outline_outline]
  | cons work rest =>
    have hdated : ({ s with queue := rest } : State).Dated := dated.congr ⟨rfl, rfl⟩
    rw [tick_of_queue hqueue, tick_of_queue (s := s.outline suspect) hqueue]
    cases work with
    | start number => exact outline_start (s := { s with queue := rest }) suspect hdated number
    | finish number => exact outline_finish (s := { s with queue := rest }) suspect hdated number
    | release number => exact outline_release suspect { s with queue := rest } number
    | conclude run => exact outline_conclude suspect { s with queue := rest } run

end State

end BoundedJobs
