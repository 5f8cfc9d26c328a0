import BoundedJobs.Proofs.Runner.Conclusion
import BoundedJobs.Proofs.Runner.Fostered

/-!
# What is first heard from a child

The body of a command ends as the first report of its child says. Two things can come in the way:
the run is aborted before the command starts, and then there is no child; or the child cannot be
spawned. While the clock shows a date there is nothing else.

* `State.heard?` — what is first heard from the child of a job during a sequence of moves;
* `Child.Ends` — how the body of a command ends, told from its child. It ends well exactly if the
  child could be spawned and first reported the exit code zero (`Child.Ends.failure?_eq_none_iff`);
* `Phase.Tells` — what the phase of a command says about its child. Every move keeps this
  (`Told.receive`, `Told.tick`);
* `Crew.told_of_regular` — so it holds of every command of a run at every moment;
* `Crew.settled_of_silent` — a run of commands that has its runner for itself has settled as soon as
  no work is left and no child is still to be heard from.
-/

namespace BoundedJobs

/-! ## How a command ends -/

/-- How the body of a command ends: as the first report of its child says, if the child has been
asked for and could be spawned. -/
inductive Child.Ends (child : Child) (line : String) (asked : List Spawn)
    (heard? : Option ChildReport) : Ending → Prop
  | skipped (unasked : asked = []) : Ends child line asked heard? (Ending.skipped line).effective
  | unstarted {message : String} (fails : child.spawnError = some message) :
      Ends child line asked heard? (.thrown (Fault.plain message).value)
  | reported {report : ChildReport} (starts : child.spawnError = none)
      (heard : heard? = some report) : Ends child line asked heard? (report.ending line).effective

/-- The command of a child has succeeded: the child could be spawned and first reported the exit
code zero. -/
def Child.succeeded (child : Child) (heard? : Option ChildReport) : Bool :=
  child.spawnError.isNone &&
    match heard? with
    | some (.exit code _) => code = some 0
    | _ => false

/-- The error of a command is a failure. -/
theorem Ending.failure?_ofFault (made : Except Fault Fault) :
    (Ending.ofCommand (.ofFault made)).effective.failure? ≠ none := by
  cases made <;> exact Option.some_ne_none _

/-- A report is no failure exactly if it is the exit code zero. -/
theorem ChildReport.failure?_ending (line : String) (report : ChildReport) :
    (report.ending line).effective.failure? = none ↔
      ∃ signal, report = .exit (some 0) signal := by
  cases report with
  | exit code signal =>
    -- the signal does not matter next to the code zero
    by_cases hzero : code = some 0
    · subst hzero
      exact iff_of_true rfl ⟨signal, rfl⟩
    · have hending : ending line (.exit code signal)
          = .ofCommand (.ofFault (Command.fault line code signal none)) :=
        congrArg Ending.ofCommand (if_neg hzero)
      refine iff_of_false (hending ▸ Ending.failure?_ofFault _) ?_
      rintro ⟨other, h⟩
      exact hzero (ChildReport.exit.inj h).1
  | error message =>
    refine iff_of_false ?_ ?_
    · exact Ending.failure?_ofFault
        (Command.fault line none none (some (Fault.plain message).value))
    · rintro ⟨signal, h⟩
      cases h

namespace Child.Ends

variable {child : Child} {line : String} {asked : List Spawn} {heard? : Option ChildReport}
  {ending : Ending}

/-- What is heard later does not matter. -/
theorem later (h : child.Ends line asked heard? ending) (more : Option ChildReport) :
    child.Ends line asked (heard?.or more) ending := by
  cases h with
  | skipped unasked => exact .skipped unasked
  | unstarted fails => exact .unstarted fails
  | reported starts heard =>
    refine .reported starts ?_
    rw [heard]
    rfl

/-- A child that could be spawned has been heard from when its command has ended. -/
theorem heard?_ne_none (h : child.Ends line asked heard? ending)
    (starts : child.spawnError = none) (asks : asked ≠ []) : heard? ≠ none := by
  cases h with
  | skipped unasked => exact absurd unasked asks
  | unstarted fails => exact absurd (starts.symm.trans fails) (by simp)
  | reported _ heard =>
    rw [heard]
    exact Option.some_ne_none _

/-- **A command ends well** exactly if it has succeeded. -/
theorem failure?_eq_none_iff (h : child.Ends line asked heard? ending)
    (unheard : asked = [] → heard? = none) :
    ending.failure? = none ↔ child.succeeded heard? = true := by
  cases h with
  -- without a child there is neither a report nor success
  | skipped unasked =>
    refine iff_of_false ?_ ?_
    · rw [Ending.failure?_skipped]
      exact Option.some_ne_none _
    · unfold succeeded
      rw [unheard unasked, Bool.and_false]
      exact Bool.false_ne_true
  | unstarted fails =>
    refine iff_of_false (Option.some_ne_none _) ?_
    unfold succeeded
    rw [fails]
    exact Bool.false_ne_true
  | @reported report starts heard =>
    rw [ChildReport.failure?_ending]
    unfold succeeded
    rw [starts, heard]
    cases report <;> simp

end Child.Ends

namespace State

variable {s t : State} {moves : List Move} {m : Move} {number : Nat} {job : Job} {line : String}
  {quiet : Bool} {capacity begun admitted : Nat}

/-! ## What is heard -/

/-- What is heard from the child of a job in a move. Nobody listens to a child that has not been
asked for. -/
def hears? (s : State) (number : Nat) : Move → Option ChildReport
  | .arrive stimulus => if (s.children number).isEmpty then none else s.report? number stimulus
  | .tick => none

/-- What is first heard from the child of a job during a sequence of moves. -/
def heard? (s : State) (number : Nat) : List Move → Option ChildReport
  | [] => none
  | m :: moves => (s.hears? number m).or ((s.move m).heard? number moves)

theorem hears?_of_unasked (unasked : s.children number = []) (m : Move) :
    s.hears? number m = none := by
  cases m with
  | arrive stimulus => exact if_pos (List.isEmpty_iff.mpr unasked)
  | tick => rfl

theorem hears?_of_asked (asked : s.children number ≠ []) (stimulus : Stimulus) :
    s.hears? number (.arrive stimulus) = s.report? number stimulus :=
  if_neg (mt List.isEmpty_iff.mp asked)

theorem heard?_concat (s : State) (number : Nat) (moves : List Move) (m : Move) :
    s.heard? number (moves ++ [m])
      = (s.heard? number moves).or ((s.after moves).hears? number m) := by
  induction moves generalizing s with
  | nil => exact (Option.or_none (o := s.hears? number m)).trans Option.none_or.symm
  | cons first moves ih =>
    rw [List.cons_append, heard?, ih, heard?, Option.or_assoc]
    rfl

theorem heard?_concat_tick (s : State) (number : Nat) (moves : List Move) :
    s.heard? number (moves ++ [.tick]) = s.heard? number moves := by
  rw [heard?_concat]
  exact Option.or_none

/-- A child that has been asked for stays so. -/
theorem children_move (s : State) (m : Move) (number : Nat) :
    ∃ asked, (s.move m).children number = s.children number ++ asked := by
  cases m with
  | arrive stimulus =>
    refine ⟨[], ?_⟩
    rw [List.append_nil]
    exact receive_children s stimulus number
  | tick =>
    obtain ⟨asked, hasks, -⟩ := tick_asks s
    exact ⟨_, hasks.children number⟩

/-- Nothing has been heard from a child that has not been asked for. -/
theorem heard?_eq_none (unasked : (s.after moves).children number = []) :
    s.heard? number moves = none := by
  induction moves using List.reverseRecOn with
  | nil => rfl
  | append_singleton moves m ih =>
    rw [after_concat] at unasked
    obtain ⟨asked, hasked⟩ := children_move (s.after moves) m number
    rw [unasked] at hasked
    have hbefore : (s.after moves).children number = [] :=
      (List.append_eq_nil_iff.mp hasked.symm).1
    rw [heard?_concat, ih hbefore, Option.none_or, hears?_of_unasked hbefore]

theorem hasHeard_iff : s.HasHeard moves number ↔ s.heard? number moves ≠ none := by
  induction moves using List.reverseRecOn with
  | nil => exact iff_of_false not_hasHeard_nil (fun h => h rfl)
  | append_singleton moves m ih =>
    have hor : ∀ first second : Option ChildReport,
        first.or second ≠ none ↔ first ≠ none ∨ second ≠ none := by
      intro first second
      cases first <;> simp
    rw [hasHeard_concat, ih, heard?_concat, hor]
    refine or_congr_right ?_
    -- the last move counts only if the child had been asked for before
    by_cases hasked : (s.after moves).children number = []
    · refine iff_of_false ?_ fun h => h (hears?_of_unasked hasked m)
      rintro ⟨-, -, hchild, -⟩
      exact hchild hasked
    · cases m with
      | arrive stimulus =>
        rw [hears?_of_asked hasked]
        constructor
        · rintro ⟨other, hsame, -, hreport⟩
          rwa [Move.arrive.inj hsame]
        · exact fun hreport => ⟨stimulus, rfl, hasked, hreport⟩
      | tick =>
        refine iff_of_false ?_ fun h => h rfl
        rintro ⟨stimulus, hsame, -⟩
        cases hsame

end State

/-! ## What the phase of a command says -/

/-- What the phase of a command says about its child. -/
def Phase.Tells (phase : Phase) (line : String) (child : Child) (asked : List Spawn)
    (heard? : Option ChildReport) : Prop :=
  match phase with
  | waiting | granted => asked = []
  | running _ => asked ≠ [] ∧ child.spawnError = none ∧ heard? = none
  | settled _ ending => child.Ends line asked heard? ending
  | leaving result | finished result => ∀ outcome, result = .outcome outcome →
      ∃ ending, child.Ends line asked heard? ending ∧ outcome.error = ending.failure? ∧
        outcome.status = if ending.failure?.isSome then .failed else .ok

namespace State

variable {s t : State} {moves : List Move} {m : Move} {number : Nat} {job : Job} {line : String}
  {quiet : Bool} {capacity begun admitted : Nat}

/-- What the phase of a job says about its child after a sequence of moves. -/
def Told (s : State) (moves : List Move) (number : Nat) (line : String) : Prop :=
  ∃ phase, (s.after moves).phase? number = some phase ∧
    phase.Tells line (s.shell.child line) ((s.after moves).children number)
      (s.heard? number moves)

/-- **A stimulus** lets a command settle when its child is first heard from, and else leaves it
where it is. -/
theorem Told.receive (h : s.Told moves number line) (sound : Sound (s.after moves))
    (body : (s.after moves).body? number = some (.command line quiet))
    (task : ∀ job, (s.after moves).jobs[number]? = some job → job.run? ≠ none)
    (stimulus : Stimulus) : s.Told (moves ++ [.arrive stimulus]) number line := by
  obtain ⟨phase, hphase, htells⟩ := h
  obtain ⟨job, hj, rfl⟩ := exists_of_phase? hphase
  have hafter : s.after (moves ++ [.arrive stimulus]) = (s.after moves).receive stimulus :=
    after_concat s moves _
  have hchildren : (s.after (moves ++ [.arrive stimulus])).children number
      = (s.after moves).children number := by
    rw [hafter, receive_children]
  refine ⟨_, hafter ▸ sound.receive_command hj (task job hj) (body_of_body? hj body) stimulus, ?_⟩
  rw [hchildren, heard?_concat]
  cases hp : job.phase with
  | waiting | granted =>
    rw [hp] at htells
    exact htells
  | running times =>
    rw [hp] at htells
    obtain ⟨hasked, hstarts, hunheard⟩ := htells
    -- nothing has been heard before, so a report now is the first one
    rw [hunheard, Option.none_or, hears?_of_asked hasked]
    cases hreport : (s.after moves).report? number stimulus with
    | none => exact ⟨hasked, hstarts, rfl⟩
    | some report => exact .reported hstarts rfl
  | settled times ending =>
    rw [hp] at htells
    exact Child.Ends.later htells _
  | leaving result | finished result =>
    rw [hp] at htells
    intro outcome houtcome
    obtain ⟨ending, hends, hsaid⟩ := htells outcome houtcome
    exact ⟨ending, hends.later _, hsaid⟩

/-! ## Pieces of work -/

/-- What the start of a command brings about while the clock shows a date: the next phase of its
job, the children that are asked for, and the timers that are made. -/
inductive Outset (aborted : Bool) (child : Child) (clock : Number) (number : Nat) (line : String)
    (quiet : Bool) : Phase → List Spawn → List Timer → Prop
  /-- The run has been aborted. -/
  | skipped {times : Times} (stopped : aborted = true) :
      Outset aborted child clock number line quiet
        (.settled times (Ending.skipped line).effective) [] []
  /-- The child cannot be spawned. -/
  | unstarted {times : Times} {message : String} (going : aborted = false)
      (fails : child.spawnError = some message) :
      Outset aborted child clock number line quiet
        (.settled times (.thrown (Fault.plain message).value)) [{ job := number, line, quiet }] []
  | launched {times : Times} (going : aborted = false) (starts : child.spawnError = none) :
      Outset aborted child clock number line quiet (.running times) [{ job := number, line, quiet }]
        [{ due := clock + child.delay, alarm := .child number child.report }]

theorem enterCommand_outset (dated : s.Dated) (hj : s.jobs[number]? = some job)
    (task : job.run? ≠ none) (times : Times) (line : String) (quiet : Bool) :
    ∃ phase asked alarms,
      Outset (s.isAborted job) (s.shell.child line) s.clock number line quiet phase asked alarms ∧
      (s.enterCommand number job times line quiet).phase? number = some phase ∧
      (s.enterCommand number job times line quiet).spawned = s.spawned ++ asked ∧
      (s.enterCommand number job times line quiet).timers = s.timers ++ alarms := by
  -- the end of a task is noted by its run
  have hsettle : ∀ (u : State) (ending : Ending), u.settle number job times ending
      = u.place number (.settled times ending.effective) := by
    intro u ending
    rw [settle_eq_place, ended_of_run? task]
  cases haborted : s.isAborted job with
  | true =>
    have hentered : s.enterCommand number job times line quiet
        = s.settle number job times (Ending.skipped line) := if_pos haborted
    rw [hentered, hsettle]
    exact ⟨_, _, _, .skipped rfl, phase?_place hj _, (List.append_nil _).symm,
      (List.append_nil _).symm⟩
  | false =>
    obtain ⟨events, hentered⟩ := enterCommand_of_dated dated number times line quiet haborted
    let asked : State :=
      { s with events, spawned := s.spawned ++ [{ job := number, line, quiet }] }
    have hasked : asked.jobs[number]? = some job := hj
    rw [hentered]
    cases hchild : (s.shell.child line).spawnError with
    | some message =>
      dsimp only
      rw [hsettle]
      exact ⟨_, _, _, .unstarted rfl hchild, phase?_place hasked _, rfl, (List.append_nil _).symm⟩
    | none =>
      exact ⟨.running times, _, _, .launched rfl hchild, phase?_place hasked (.running times), rfl,
        rfl⟩

/-- A command whose turn has come starts in one of these ways. -/
theorem start_outset (dated : s.Dated) (hj : s.jobs[number]? = some job) (task : job.run? ≠ none)
    (granted : job.phase = .granted) (body : job.body = .command line quiet) :
    ∃ phase asked alarms,
      Outset (s.isAborted job) (s.shell.child line) (s.looked job).clock number line quiet phase
        asked alarms ∧
      (s.start number).phase? number = some phase ∧
      (s.start number).spawned = s.spawned ++ asked ∧
      (s.start number).timers = s.timers ++ alarms := by
  -- a start in range crashes nowhere, so the command itself is entered
  obtain ⟨events, hstart⟩ := start_of_dated dated hj granted
  have hlooked := looked_beside s job
  have hshell : (s.looked job).shell = s.shell := by
    rw [looked_of_task task, look_shell, look_shell]
  have hspawned : (s.looked job).spawned = s.spawned := by
    rw [looked_of_task task, look_spawned, look_spawned]
  let entered : State :=
    { s.looked job with events := events ++ [({ s.looked job with events }).entry number job] }
  have hentered : s.start number = entered.enterCommand number job (s.timesOf job) line quiet := by
    rw [hstart]
    unfold enter
    rw [body]
    rfl
  -- neither the looks nor what is told changes what the command can see
  have haborted : entered.isAborted job = s.isAborted job := by
    unfold isAborted
    rw [show entered.runs = s.runs from hlooked.runs]
  have hj' : entered.jobs[number]? = some job :=
    (congrArg (·[number]?) hlooked.jobs).trans hj
  have hdated : entered.Dated := (dated.looked job).congr ⟨rfl, rfl⟩
  obtain ⟨phase, asked, alarms, houtset, hphase, hasked, halarms⟩ :=
    enterCommand_outset hdated hj' task (s.timesOf job) line quiet
  rw [haborted, show entered.shell = s.shell from hshell] at houtset
  rw [hentered]
  exact ⟨phase, asked, alarms, houtset, hphase, hasked.trans (congrArg (· ++ asked) hspawned),
    halarms.trans (congrArg (· ++ alarms) hlooked.timers)⟩

/-- A job that has been granted its slot stays so until its start is drawn. -/
theorem InLine.tick_granted (h : InLine capacity 0 s begun admitted)
    (hj : s.jobs[number]? = some job) (granted : job.phase = .granted)
    (hqueue : s.queue ≠ .start number :: s.popped.queue) :
    s.tick.phase? number = some .granted := by
  have hmem : .start number ∈ s.queue := by
    have hduty : .start number ∈ duties s.jobs :=
      mem_duties.mpr ⟨number, job, hj, by rw [granted]; rfl⟩
    exact List.mem_of_mem_filter (h.queued.mem_iff.mpr hduty)
  -- it is behind the piece of work that is drawn
  have hbehind : .start number ∈ s.popped.queue := by
    unfold popped
    cases hq : s.queue with
    | nil =>
      rw [hq] at hmem
      exact absurd hmem List.not_mem_nil
    | cons work rest =>
      rw [hq] at hmem
      refine (List.mem_cons.mp hmem).resolve_left ?_
      rintro rfl
      refine hqueue ?_
      unfold popped
      rw [hq]
      rfl
  obtain ⟨more, hmore⟩ := h.ticked.queue
  obtain ⟨begun', admitted', hnext⟩ := h.tick
  have hlater : .start number ∈ s.tick.queue := by
    rw [hmore]
    exact List.mem_append_left _ hbehind
  obtain ⟨job', hj', hwork⟩ := hnext.job_of_mem hlater rfl
  rw [phase?_of_job hj']
  cases hp : job'.phase <;> rw [hp] at hwork <;> simp [Phase.work?] at hwork ⊢

/-- **The turn of a command** has come: its child is asked for, or it ends without one. -/
theorem Told.begin (h : s.Told moves number line)
    (inLine : InLine capacity 0 (s.after moves) begun admitted) (dated : (s.after moves).Dated)
    (shell : (s.after moves).shell = s.shell)
    (body : (s.after moves).body? number = some (.command line quiet))
    (task : ∀ job, (s.after moves).jobs[number]? = some job → job.run? ≠ none)
    (turn : (s.after moves).queue = .start number :: (s.after moves).popped.queue) :
    s.Told (moves ++ [.tick]) number line := by
  obtain ⟨phase, hphase, htells⟩ := h
  obtain ⟨job, hj, rfl⟩ := exists_of_phase? hphase
  have hgranted : job.phase = .granted := by
    have hmem : .start number ∈ (s.after moves).queue := by
      rw [turn]
      exact List.mem_cons_self
    obtain ⟨other, hother, hwork⟩ := inLine.job_of_mem hmem rfl
    obtain rfl := Option.some.inj (hj.symm.trans hother)
    cases hp : job.phase <;> rw [hp] at hwork <;> simp [Phase.work?] at hwork ⊢
  -- so nothing has been asked for, and nothing has been heard
  rw [hgranted] at htells
  have hunasked : (s.after moves).children number = [] := htells
  have hunheard : s.heard? number moves = none := heard?_eq_none hunasked
  have htick : (s.after moves).tick = (s.after moves).popped.start number := tick_of_queue turn
  obtain ⟨next, asked, alarms, houtset, hnext, hspawned, -⟩ :=
    start_outset (s := (s.after moves).popped) (dated.congr ⟨rfl, rfl⟩) hj (task job hj) hgranted
      (body_of_body? hj body)
  have hchildren : (s.after moves).tick.children number = asked.filter (·.job = number) := by
    unfold children at hunasked ⊢
    rw [htick, hspawned, List.filter_append]
    exact (congrArg (· ++ _) hunasked).trans (List.nil_append _)
  have hshell : (s.after moves).popped.shell = s.shell := shell
  have hafter : s.after (moves ++ [.tick]) = (s.after moves).tick := after_concat s moves .tick
  unfold Told
  rw [heard?_concat_tick, hafter]
  refine ⟨next, htick ▸ hnext, ?_⟩
  rw [hchildren, hunheard]
  rw [hshell] at houtset
  cases houtset with
  | skipped => exact .skipped rfl
  | unstarted _ fails => exact .unstarted fails
  | launched _ starts => exact ⟨by simp, starts, rfl⟩

/-- **A piece of work** starts a command, notes its end or gives its slot back, and changes nothing
about what its phase says. -/
theorem Told.tick (h : s.Told moves number line)
    (inLine : InLine capacity 0 (s.after moves) begun admitted) (dated : (s.after moves).Dated)
    (shell : (s.after moves).shell = s.shell)
    (body : (s.after moves).body? number = some (.command line quiet))
    (task : ∀ job, (s.after moves).jobs[number]? = some job → job.run? ≠ none) :
    s.Told (moves ++ [.tick]) number line := by
  by_cases hqueue : (s.after moves).queue = .start number :: (s.after moves).popped.queue
  · exact h.begin inLine dated shell body task hqueue
  obtain ⟨phase, hphase, htells⟩ := h
  obtain ⟨job, hj, rfl⟩ := exists_of_phase? hphase
  have hafter : s.after (moves ++ [.tick]) = (s.after moves).tick := after_concat s moves .tick
  obtain ⟨next, hstep, hnext⟩ : ∃ next,
      CommandStep (s.after moves) number job line quiet next [] ∧
      (s.after moves).tick.phase? number = some next := inLine.tick_otherWork hj hqueue
  unfold Told
  rw [heard?_concat_tick, hafter]
  refine ⟨next, hnext, ?_⟩
  rw [tick_children hqueue]
  cases hstep with
  | still => exact htells
  | admitted waiting =>
    rw [waiting] at htells
    exact htells
  | started granted =>
    -- the start of the command is another piece of work
    have hsame := inLine.tick_granted hj granted hqueue
    obtain rfl := Option.some.inj (hsame.symm.trans hnext)
    rw [granted] at htells
    exact htells
  | @noted times ending result settled comes =>
    rw [settled] at htells
    intro outcome houtcome
    obtain ⟨run, hrun⟩ := Option.ne_none_iff_exists'.mp (task job hj)
    rcases comes run hrun with ⟨fault, rfl⟩ | rfl
    · cases houtcome
    · obtain rfl := Result.outcome.inj houtcome
      exact ⟨ending, htells, rfl, rfl⟩
  | released leaving =>
    rw [leaving] at htells
    exact htells

end State

/-! ## The commands of a run -/

/-- Whether a move submits a run or a call. -/
def Move.submits : Move → Bool
  | .arrive (.settle _) | .arrive (.call ..) => true
  | _ => false

namespace Crew

open State

variable {c : Crew} {request : Request} {origin : State} {capacity : Nat}

/-- **What the phase of a command says about its child**, at every moment after the submission of
its run while the clock shows a date. -/
theorem told_of_regular (regular : origin.Regular capacity) (kin : origin.Kin) (request : Request)
    (later : List Move) {place : Nat} {task : Task} {line : String} {quiet : Bool}
    (task_eq : request.tasks[place]? = some task) (body : task.body = .command line quiet) :
    let first := origin.receive (.settle request)
    let c := ofRequest origin request
    (∀ moment, moment <+: later → (first.after moment).Dated) →
      first.Told later (c.first + place) line := by
  intro first c dated
  induction later using List.reverseRecOn with
  | nil =>
    obtain ⟨job, hj, -⟩ := (carriesOut_receive regular.enrolled request).task place task task_eq
    -- the job is a newcomer, which has neither begun nor asked for a child
    have hchildren : first.children (c.first + place) = [] := by
      have hsame : first.spawned = origin.spawned := (receive_sends origin _).spawned
      unfold children
      rw [hsame]
      exact kin.children_unborn (Nat.le_add_right _ _)
    refine ⟨job.phase, phase?_of_job hj, ?_⟩
    rcases (receive_phase origin (.settle request)).2 _ _ hj with ⟨old, hold, -⟩ | ⟨-, hphase⟩
    · have hlt := (List.getElem?_eq_some_iff.mp hold).1
      exact absurd hlt (Nat.not_lt.mpr (Nat.le_add_right _ _))
    · rcases hphase with hphase | hphase <;> rw [hphase] <;> exact hchildren
  | append_singleton later m ih =>
    have htold := ih fun moment hmoment => dated moment (hmoment.trans (List.prefix_append _ _))
    have hregular := regular.after (.arrive (.settle request) :: later)
    have hcarries := (tracked_of_regular regular request later).1
    obtain ⟨job, hj, -, hbody⟩ := hcarries.task place task task_eq
    have hbody? : (first.after later).body? (c.first + place) = some (.command line quiet) := by
      unfold body?
      rw [hj, ← body, ← hbody]
      rfl
    have hmem : c.first + place ∈ c.jobs :=
      first_add_mem (hcarries.size ▸ (List.getElem?_eq_some_iff.mp task_eq).1)
    cases m with
    | arrive stimulus =>
      exact htold.receive hregular.sound hbody? (fun _ hother => hcarries.isTask hother hmem)
        stimulus
    | tick =>
      obtain ⟨begun, admitted, hline⟩ := hregular.inLine
      exact htold.tick hline (dated later (List.prefix_append _ _)) (shell_after first later)
        hbody? fun _ hother => hcarries.isTask hother hmem

section Commands

variable (regular : origin.Regular capacity) (kin : origin.Kin) (request : Request)
  (later : List Move) {place : Nat} {task : Task} {line : String} {quiet : Bool}
  (task_eq : request.tasks[place]? = some task) (body : task.body = .command line quiet)

include regular kin task_eq body

/-- The child of a command that is not in progress has been heard from, if it could be spawned. -/
theorem not_lives_of_idle :
    let first := origin.receive (.settle request)
    let c := ofRequest origin request
    (∀ moment, moment <+: later → (first.after moment).Dated) →
      c.first + place ∉ (first.after later).bodies → (first.shell.child line).spawnError = none →
        ¬ first.Lives later (c.first + place) := by
  intro first c dated idle starts ⟨asks, hunheard⟩
  obtain ⟨phase, hphase, htells⟩ :=
    told_of_regular regular kin request later task_eq body dated
  obtain ⟨job, hj, rfl⟩ := exists_of_phase? hphase
  have hended : ∀ ending, (first.shell.child line).Ends line
      ((first.after later).children (c.first + place)) (first.heard? (c.first + place) later)
      ending → False := fun ending hends =>
    hunheard (hasHeard_iff.mpr (hends.heard?_ne_none starts asks))
  cases hp : job.phase with
  | waiting | granted =>
    rw [hp] at htells
    exact asks htells
  | running times => exact idle (mem_jobsIn.mpr ⟨job, hj, by rw [hp]; rfl⟩)
  | settled times ending =>
    rw [hp] at htells
    exact hended ending htells
  | leaving result | finished result =>
    rw [hp] at htells
    -- the task has come to an outcome, since it has not crashed
    obtain ⟨hcarries, htracked⟩ := tracked_of_regular regular request later
    obtain ⟨ended, ledger⟩ := htracked.ledger (clean_of_regular regular request later dated)
    have hresult : (first.after later).result? (c.first + place) = some result := by
      unfold result?
      rw [exit?_of_job hj, hp]
      rfl
    have hlt : place < c.size := hcarries.size ▸ (List.getElem?_eq_some_iff.mp task_eq).1
    obtain ⟨outcome, houtcome⟩ :=
      ledger.outcome_of_result? hlt (by rw [hresult]; exact Option.some_ne_none _)
    obtain ⟨ending, hends, -⟩ :=
      htells outcome (Option.some.inj (hresult.symm.trans houtcome))
    exact hended ending hends

/-- **In the report of a run** a command has succeeded exactly if its child has. -/
theorem status_of_reported {report : Report} :
    let first := origin.receive (.settle request)
    let c := ofRequest origin request
    (∀ moment, moment <+: later → (first.after moment).Dated) →
      c.Reported (first.after later) report →
        ∃ outcome, report.tasks[place]? = some outcome ∧ (outcome.status = .ok ↔
          (first.shell.child line).succeeded (first.heard? (c.first + place) later) = true) := by
  intro first c dated reported
  have hcarries := (tracked_of_regular regular request later).1
  have hlt : place < c.size := hcarries.size ▸ (List.getElem?_eq_some_iff.mp task_eq).1
  obtain ⟨outcome, houtcome, hresult⟩ := reported.task place hlt
  obtain ⟨phase, hphase, htells⟩ :=
    told_of_regular regular kin request later task_eq body dated
  obtain ⟨job, hj, rfl⟩ := exists_of_phase? hphase
  refine ⟨outcome, houtcome, ?_⟩
  unfold result? at hresult
  rw [exit?_of_job hj] at hresult
  -- only a job that has left its body is in the report
  cases hp : job.phase with
  | leaving result | finished result =>
    rw [hp] at htells hresult
    obtain ⟨ending, hends, -, hstatus⟩ := htells outcome (Option.some.inj hresult)
    rw [hstatus, ← hends.failure?_eq_none_iff heard?_eq_none]
    cases ending.failure? <;> simp
  | waiting | granted | running | settled =>
    rw [hp] at hresult
    exact absurd hresult (by simp [Phase.exit?])

end Commands

/-- Without submissions there are no more jobs. -/
theorem length_jobs_after (s : State) {moves : List Move} (alone : ∀ m ∈ moves, m.submits = false)
    (inLine : ∃ begun admitted, InLine capacity 0 s begun admitted) :
    (s.after moves).jobs.length = s.jobs.length := by
  -- on the moves, from the front, since each of them is no submission
  induction moves generalizing s with
  | nil => rfl
  | cons m moves ih =>
    obtain ⟨begun, admitted, hline⟩ := inLine
    obtain ⟨hfirst, hothers⟩ := List.forall_mem_cons.mp alone
    refine (ih (s.move m) hothers (hline.after [m])).trans ?_
    have hunphased : (s.move m).jobs.map Job.unphased = s.jobs.map Job.unphased := by
      cases m with
      | tick => exact hline.ticked.unphased
      | arrive stimulus =>
        have hnone : s.newcomers stimulus = [] := by
          cases stimulus <;> first | rfl | cases hfirst
        have hreceived := receive_unphased s stimulus
        rwa [hnone, List.append_nil] at hreceived
    have hlength := congrArg List.length hunphased
    rwa [List.length_map, List.length_map] at hlength

/-- **A run of commands has settled** when no work is left and all its children have been heard
from, if nothing else is ever submitted. -/
theorem settled_of_silent (regular : origin.Regular capacity) (kin : origin.Kin)
    (positive : 0 < capacity) (empty : origin.jobs = []) (request : Request)
    (commands : ∀ task ∈ request.tasks, ∃ line quiet, task.body = .command line quiet)
    {later : List Move} (alone : ∀ m ∈ later, m.submits = false) :
    let first := origin.receive (.settle request)
    let c := ofRequest origin request
    (∀ moment, moment <+: later → (first.after moment).Dated) → (first.after later).queue = [] →
    (∀ place task line quiet, request.tasks[place]? = some task →
      task.body = .command line quiet → (first.shell.child line).spawnError = none →
        ¬ first.Lives later (c.first + place)) →
      ∀ i ∈ c.jobs, i ∉ (first.after later).unsettled := by
  intro first c dated quiet silent
  have hregular := regular.after (.arrive (.settle request) :: later)
  obtain ⟨begun, admitted, hline⟩ := hregular.inLine
  change InLine capacity 0 (first.after later) begun admitted at hline
  have hjobs : (first.after later).jobs.length = request.tasks.length := by
    have hfirst := congrArg List.length (receive_unphased origin (.settle request))
    rw [List.length_map, List.length_append, List.length_map, length_newcomers, empty] at hfirst
    rw [length_jobs_after first alone (regular.move (.arrive (.settle request))).inLine]
    exact hfirst.trans (Nat.zero_add _)
  have hbodies : (first.after later).bodies = [] := by
    refine List.eq_nil_iff_forall_not_mem.mpr fun i hi => ?_
    obtain ⟨job, hj, hrunning⟩ := mem_jobsIn.mp hi
    have hlt : i < request.tasks.length := hjobs ▸ (List.getElem?_eq_some_iff.mp hj).1
    have htask := List.getElem?_eq_getElem hlt
    obtain ⟨line, quiet, hbody⟩ := commands _ (List.mem_of_getElem? htask)
    have hplace : c.first + i = i := by
      change origin.jobs.length + i = i
      rw [empty]
      exact Nat.zero_add i
    obtain ⟨phase, hphase, htells⟩ :=
      told_of_regular regular kin request later htask hbody dated
    change (first.after later).phase? (c.first + i) = some phase at hphase
    rw [hplace, phase?_of_job hj] at hphase
    obtain rfl := Option.some.inj hphase
    -- a body in progress is that of a child that has not been heard from
    cases hp : job.phase with
    | running times =>
      rw [hp] at htells
      obtain ⟨hasked, hstarts, hunheard⟩ := htells
      exact silent i _ line quiet htask hbody hstarts
        ⟨hasked, fun hheard => hasHeard_iff.mp hheard hunheard⟩
    | waiting | granted | settled | leaving | finished =>
      rw [hp] at hrunning
      cases hrunning
  rintro i - hi
  rw [hline.unsettled_of_quiet quiet, hbodies, List.nil_append] at hi
  -- nobody waits while slots are free
  have hheld := hline.held_of_quiet quiet
  rw [hbodies, List.length_nil] at hheld
  have hfull := hline.busy (List.ne_nil_of_mem hi)
  omega

end Crew

end BoundedJobs
