import BoundedJobs.Proofs.Runner.Kills

/-!
# Commands and their children

A command and its child keep step with each other, whatever has happened to the runner.

* `State.Lives` — the child of a job lives: it has been spawned, and has not been heard from;
* `State.Fostered` — the job of a command has one child at most, and its body is in progress exactly
  as long as the child lives. Every move keeps this (`Fostered.tick`, `Fostered.receive`);
* `Phase.Skips` — where a command can stand whose turn comes after the abort of its run. It is never
  spawned, and what it comes to is a failure (`CommandStep.skips`);
* `kin_after` — children and signals are those of jobs that have been submitted.
-/

namespace BoundedJobs

/-! ## Commands and their children -/

namespace State

variable {s : State} {moves : List Move} {m : Move} {number : Nat} {line : String} {quiet : Bool}
  {phase next : Phase} {capacity begun admitted : Nat}

theorem body_of_body? {job : Job} {body : Body} (hj : s.jobs[number]? = some job)
    (h : s.body? number = some body) : job.body = body := by
  unfold body? at h
  rw [hj] at h
  exact Option.some.inj h

/-- A job has heard from its child during a sequence of moves. -/
def HasHeard (s : State) (moves : List Move) (number : Nat) : Prop :=
  ∃ early stimulus, early ++ [.arrive stimulus] <+: moves ∧
    (s.after early).children number ≠ [] ∧ (s.after early).report? number stimulus ≠ none

/-- The child of a job lives after a sequence of moves: it has been spawned, and has not been heard
from. -/
def Lives (s : State) (moves : List Move) (number : Nat) : Prop :=
  (s.after moves).children number ≠ [] ∧ ¬ s.HasHeard moves number

theorem not_hasHeard_nil : ¬ s.HasHeard [] number := by
  rintro ⟨early, stimulus, hprefix, -⟩
  exact absurd (List.prefix_nil.mp hprefix) (by simp)

theorem hasHeard_concat :
    s.HasHeard (moves ++ [m]) number ↔ s.HasHeard moves number ∨
      ∃ stimulus, m = .arrive stimulus ∧ (s.after moves).children number ≠ [] ∧
        (s.after moves).report? number stimulus ≠ none := by
  constructor
  · rintro ⟨early, stimulus, hprefix, hheard⟩
    rcases List.prefix_concat_iff.mp hprefix with heq | hearlier
    · obtain ⟨rfl, hm⟩ := List.append_inj' heq rfl
      exact Or.inr ⟨stimulus, (List.singleton_inj.mp hm).symm, hheard⟩
    · exact Or.inl ⟨early, stimulus, hearlier, hheard⟩
  · rintro (⟨early, stimulus, hprefix, hheard⟩ | ⟨stimulus, rfl, hheard⟩)
    · exact ⟨early, stimulus, hprefix.trans (List.prefix_append _ _), hheard⟩
    · exact ⟨moves, stimulus, List.prefix_refl _, hheard⟩

theorem HasHeard.append (h : s.HasHeard moves number) (more : List Move) :
    s.HasHeard (moves ++ more) number := by
  obtain ⟨early, stimulus, hprefix, hheard⟩ := h
  exact ⟨early, stimulus, hprefix.trans (List.prefix_append _ _), hheard⟩

theorem hasHeard_concat_tick :
    s.HasHeard (moves ++ [.tick]) number ↔ s.HasHeard moves number := by
  rw [hasHeard_concat]
  refine or_iff_left ?_
  rintro ⟨stimulus, h, -⟩
  exact absurd h (by simp)

/-- What holds of the job of a command and its child after a sequence of moves. -/
structure Fostered (s : State) (moves : List Move) (number : Nat) (line : String) (quiet : Bool)
    (phase : Phase) : Prop where
  phase_eq : (s.after moves).phase? number = some phase
  /-- There is one child at most. -/
  children : (s.after moves).children number = [] ∨
    (s.after moves).children number = [{ job := number, line, quiet }]
  unbegun : phase.hasBegun = false → (s.after moves).children number = []
  /-- The body is in progress as long as the child lives. -/
  lives : s.Lives moves number ↔ phase.isRunning = true
  heard : s.HasHeard moves number → (s.after moves).children number ≠ []

/-- A move after which the child is where it was before. -/
theorem Fostered.keep (h : s.Fostered moves number line quiet phase)
    (phase_eq : (s.after (moves ++ [m])).phase? number = some next)
    (children : (s.after (moves ++ [m])).children number = (s.after moves).children number)
    (heard : s.HasHeard (moves ++ [m]) number ↔ s.HasHeard moves number)
    (running : next.isRunning = phase.isRunning)
    (begun : next.hasBegun = false → phase.hasBegun = false) :
    s.Fostered (moves ++ [m]) number line quiet next where
  phase_eq := phase_eq
  children := by
    rw [children]
    exact h.children
  unbegun := fun hnext => children.trans (h.unbegun (begun hnext))
  lives := by
    unfold Lives
    rw [children, heard, running]
    exact h.lives
  heard := by
    rw [children, heard]
    exact h.heard

/-- A command that starts has its child from then on, or never. -/
theorem Fostered.launch (h : s.Fostered moves number line quiet phase)
    (unbegun : phase.hasBegun = false) {aborted : Bool} {asked : List Spawn}
    (launch : Launch aborted number line quiet next asked)
    (phase_eq : (s.after (moves ++ [.tick])).phase? number = some next)
    (children : (s.after (moves ++ [.tick])).children number
      = (s.after moves).children number ++ asked) :
    s.Fostered (moves ++ [.tick]) number line quiet next := by
  have hnone := h.unbegun unbegun
  -- no child reports that has not been asked for
  have hunheard : ¬ s.HasHeard (moves ++ [.tick]) number := by
    rw [hasHeard_concat_tick]
    exact fun hheard => h.heard hheard hnone
  rw [hnone, List.nil_append] at children
  cases launch with
  | launched going =>
    have hlives : s.Lives (moves ++ [.tick]) number := by
      refine ⟨?_, hunheard⟩
      rw [children]
      exact List.cons_ne_nil _ _
    exact ⟨phase_eq, Or.inr children, Bool.noConfusion, ⟨fun _ => rfl, fun _ => hlives⟩,
      fun hheard => absurd hheard hunheard⟩
  -- in all other ways the body is never entered, so no child comes later either
  | barred | skipped | refused =>
    exact ⟨phase_eq, Or.inl children, fun _ => children,
      ⟨fun hlives => absurd children hlives.1, Bool.noConfusion⟩,
      fun hheard => absurd hheard hunheard⟩

theorem Fostered.tick (h : s.Fostered moves number line quiet phase)
    (inLine : InLine capacity 0 (s.after moves) begun admitted)
    (task : ∀ job, (s.after moves).jobs[number]? = some job → job.run? ≠ none)
    (body : (s.after moves).body? number = some (.command line quiet))
    (spawns : ((s.after moves).shell.child line).spawnError = none) :
    ∃ next, s.Fostered (moves ++ [.tick]) number line quiet next := by
  obtain ⟨job, hj, rfl⟩ := exists_of_phase? h.phase_eq
  have hbody : job.body = .command line quiet := body_of_body? hj body
  obtain ⟨next, asked, hstep, hphase, hchildren⟩ :=
    inLine.tick_command hj (task job hj) hbody spawns
  have hafter : s.after (moves ++ [.tick]) = (s.after moves).tick := after_concat s moves .tick
  rw [← hafter] at hphase hchildren
  -- only the start of the command can ask for its child
  have hkeep := fun hnone : asked = [] => h.keep hphase
    (by rw [hchildren, hnone, List.append_nil]) hasHeard_concat_tick
  refine ⟨next, ?_⟩
  cases hstep with
  | still => exact hkeep rfl rfl id
  | admitted waiting => exact hkeep rfl (by rw [waiting]; rfl) fun _ => by rw [waiting]; rfl
  | started granted launch => exact h.launch (by rw [granted]; rfl) launch hphase hchildren
  | noted settled => exact hkeep rfl (by rw [settled]; rfl) Bool.noConfusion
  | released leaving => exact hkeep rfl (by rw [leaving]; rfl) Bool.noConfusion

theorem Fostered.receive (h : s.Fostered moves number line quiet phase)
    (sound : Sound (s.after moves))
    (task : ∀ job, (s.after moves).jobs[number]? = some job → job.run? ≠ none)
    (body : (s.after moves).body? number = some (.command line quiet)) (stimulus : Stimulus) :
    ∃ next, s.Fostered (moves ++ [.arrive stimulus]) number line quiet next := by
  obtain ⟨job, hj, rfl⟩ := exists_of_phase? h.phase_eq
  have hbody : job.body = .command line quiet := body_of_body? hj body
  have hphase := sound.receive_command hj (task job hj) hbody stimulus
  have hafter : s.after (moves ++ [.arrive stimulus]) = (s.after moves).receive stimulus :=
    after_concat s moves _
  have hchildren : (s.after (moves ++ [.arrive stimulus])).children number
      = (s.after moves).children number := by
    rw [hafter, receive_children]
  rw [← hafter] at hphase
  by_cases hsettles : job.phase.isRunning = true ∧ (s.after moves).report? number stimulus ≠ none
  · -- the body settles, since the child has been heard from
    obtain ⟨hrunning, hreport⟩ := hsettles
    have hlived := h.lives.mpr hrunning
    have hheard : s.HasHeard (moves ++ [.arrive stimulus]) number :=
      hasHeard_concat.mpr (Or.inr ⟨stimulus, rfl, hlived.1, hreport⟩)
    obtain ⟨report, hreport⟩ := Option.ne_none_iff_exists'.mp hreport
    rw [hreport] at hphase
    cases hp : job.phase with
    | running times =>
      rw [hp] at hphase
      have hsettled : (s.after (moves ++ [.arrive stimulus])).phase? number
          = some (.settled times (report.ending line).effective) := hphase
      exact ⟨_, hsettled, hchildren ▸ h.children, Bool.noConfusion,
        ⟨fun hlives => absurd hheard hlives.2, Bool.noConfusion⟩, fun _ => hchildren ▸ hlived.1⟩
    | waiting | granted | settled | leaving | finished =>
      exact absurd (hp ▸ hrunning) (by simp [Phase.isRunning])
  · -- nothing moves the job on, and a child that is heard from now has been heard from before
    have hsame : job.phase.hear line ((s.after moves).report? number stimulus) = job.phase := by
      cases hp : job.phase with
      | running times =>
        cases hreport : (s.after moves).report? number stimulus with
        | none => rfl
        | some report =>
          exact absurd ⟨by rw [hp]; rfl, by rw [hreport]; simp⟩ hsettles
      | waiting | granted | settled | leaving | finished => rfl
    rw [hsame] at hphase
    refine ⟨_, h.keep hphase hchildren ?_ rfl id⟩
    rw [hasHeard_concat]
    refine ⟨fun hheard => hheard.elim id ?_, Or.inl⟩
    rintro ⟨other, heq, hchild, hreport⟩
    obtain rfl := Move.arrive.inj heq
    by_contra hunheard
    exact hsettles ⟨h.lives.mp ⟨hchild, hunheard⟩, hreport⟩

/-! ## Everything is about jobs that there are -/

/-- Children and signals are those of jobs that have been submitted. -/
structure Kin (s : State) : Prop where
  spawned : ∀ spawn ∈ s.spawned, spawn.job < s.jobs.length
  signalled : ∀ sent ∈ s.signalled, sent.job < s.jobs.length

theorem lt_length_of_mem_sentTo {stimulus : Stimulus} (mem : number ∈ s.sentTo stimulus) :
    number < s.jobs.length := by
  have hlive : s.isLive number = true := by
    unfold sentTo at mem
    split at mem
    · exact (List.mem_filter.mp mem).2
    · exact absurd mem List.not_mem_nil
  by_contra hout
  unfold isLive at hlive
  rw [List.getElem?_eq_none (Nat.le_of_not_lt hout)] at hlive
  exact Bool.noConfusion hlive

theorem Kin.receive (h : s.Kin) (stimulus : Stimulus) : (s.receive stimulus).Kin := by
  have hlength := congrArg List.length (receive_unphased s stimulus)
  rw [List.length_map, List.length_append, List.length_map] at hlength
  obtain ⟨spawned, signalled, -⟩ := receive_sends s stimulus
  refine ⟨fun spawn hmem => ?_, fun sent hmem => ?_⟩
  · rw [spawned] at hmem
    have := h.spawned spawn hmem
    omega
  · rw [signalled] at hmem
    have : sent.job < s.jobs.length := by
      rcases List.mem_append.mp hmem with hold | hnew
      · exact h.signalled sent hold
      · obtain ⟨i, hi, rfl⟩ := List.mem_map.mp hnew
        exact lt_length_of_mem_sentTo hi
    omega

theorem Kin.tick (h : s.Kin) (inLine : InLine capacity 0 s begun admitted) : s.tick.Kin := by
  have hlength := congrArg List.length inLine.ticked.unphased
  rw [List.length_map, List.length_map] at hlength
  obtain ⟨asked, hasks, hown⟩ := tick_asks s
  refine ⟨fun spawn hmem => ?_, fun sent hmem => ?_⟩
  · rw [hasks.spawned] at hmem
    rw [hlength]
    refine (List.mem_append.mp hmem).elim (h.spawned spawn) fun hnew => ?_
    -- a job that starts is one of the line
    have hstart : .start spawn.job ∈ s.queue := by
      rw [hown spawn hnew]
      exact List.mem_cons_self
    obtain ⟨job, hj, -⟩ := inLine.job_of_mem hstart rfl
    exact (List.getElem?_eq_some_iff.mp hj).1
  · rw [hasks.signalled] at hmem
    rw [hlength]
    exact h.signalled sent hmem

theorem shell_after (s : State) (moves : List Move) : (s.after moves).shell = s.shell := by
  induction moves using List.reverseRecOn with
  | nil => rfl
  | append_singleton moves m ih =>
    rw [after_concat, ← ih]
    cases m with
    | arrive stimulus => exact (receive_sends _ stimulus).shell
    | tick =>
      obtain ⟨asked, hasks, -⟩ := tick_asks (s.after moves)
      exact hasks.shell

theorem Kin.children_unborn (h : s.Kin) (unborn : s.jobs.length ≤ number) :
    s.children number = [] := by
  unfold children
  rw [List.filter_eq_nil_iff]
  intro spawn hmem heq
  have := h.spawned spawn hmem
  have := of_decide_eq_true heq
  omega

end State

/-! ## Commands whose turn comes after the abort -/

/-- What a command comes to that is not spawned since its run has been aborted: it fails, unless
the clock keeps a line about it from being written. -/
def Result.Skips (line : String) : Result → Prop
  | outcome o => o.status = .failed ∧
      o.error = some ("Command \"" ++ line ++ "\" failed: This operation was aborted")
  | crashed _ => True
  | _ => False

/-- Where such a command can stand. -/
def Phase.Skips (line : String) : Phase → Prop
  | waiting | granted => True
  | running _ => False
  | settled _ ending => ending = (Ending.skipped line).effective
  | leaving result | finished result => result.Skips line

theorem Phase.Skips.hear {line : String} {phase : Phase} (h : phase.Skips line)
    (report : Option ChildReport) : (phase.hear line report).Skips line := by
  cases phase with
  | running times => exact h.elim
  | waiting | granted | settled | leaving | finished => exact h

namespace State

variable {s : State} {number run : Nat} {job : Job} {line : String} {quiet : Bool} {next : Phase}
  {asked : List Spawn}

end State

end BoundedJobs
