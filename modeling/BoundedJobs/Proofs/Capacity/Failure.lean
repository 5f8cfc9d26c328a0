import BoundedJobs.Proofs.Capacity.Sizing

/-!
# Probes that fail

A probe may fail with anything. The failure is to be passed over: a debug line tells it, and the CPU
count of the machine is the cap. But telling it takes two steps, and neither is possible for every
value. What a failure says about itself is made a text, whatever the log level is, and there are
values that have none. Where the line is shown, it is then written as JSON, which refuses what an
error may hold in the place of its message.

So a failing probe is passed over exactly if its failure can be told:

* `Capacity.Told` — a failure can be told at a log level;
* `Capacity.Told.of_level` — the level matters only for an error whose message is no text;
* `Capacity.failureLine_eq_ok_iff` — the line is made exactly for such a failure;
* `Limiter.create_of_failure` — what becomes of the capacity and of the limiter.
-/

namespace BoundedJobs

variable {α : Type} {failure complaint : Value} {level : Log.Level}

/-! ## What a failure says -/

/-- What a failure says about itself is a text, unless it is an error whose message is none. -/
theorem Value.text_of_complaint (h : failure.complaint = .ok complaint) :
    (∃ text, complaint = .text text) ∨ failure = .messaged complaint := by
  unfold Value.complaint at h
  split at h
  · cases h
  · split at h
    · next herror =>
      cases failure with
      | fault kind message cause => exact Or.inl ⟨message, (Except.ok.inj h).symm⟩
      -- the message of an error object is handed on as it is, text or not
      | messaged message => exact Or.inr (congrArg Value.messaged (Except.ok.inj h))
      | unreadable reason => cases h
      | _ => cases herror
    · cases htext : failure.plainText with
      | error fault =>
        rw [htext] at h
        cases h
      | ok text =>
        rw [htext] at h
        exact Or.inl ⟨text, (Except.ok.inj h).symm⟩

namespace Capacity

/-- **A failure can be told at a log level.** It says something about itself, and where debug lines
are shown, JSON does not refuse what it says. -/
def Told (level : Log.Level) (failure : Value) : Prop :=
  ∃ complaint, failure.complaint = .ok complaint ∧
    (level.shows .debug = true → ∃ tree, complaint.dump = .ok tree)

/-- The level matters only for an error whose message is no text. -/
theorem Told.of_level (hmessage : ∀ message, failure ≠ .messaged message)
    (h : Told level failure) (other : Log.Level) : Told other failure := by
  obtain ⟨complaint, hcomplaint, -⟩ := h
  refine ⟨complaint, hcomplaint, fun _ => ?_⟩
  rcases Value.text_of_complaint hcomplaint with ⟨text, rfl⟩ | hmessaged
  · exact ⟨_, rfl⟩
  · exact absurd hmessaged (hmessage complaint)

/-- **An ordinary error can be told at every level.** -/
theorem told_fault (level : Log.Level) (fault : Fault) : Told level fault.value :=
  ⟨.text fault.message, rfl, fun _ => ⟨_, rfl⟩⟩

/-! ## The debug line -/

variable {s : Surroundings}

/-- A line that is shown is refused as soon as JSON refuses what the failure says. -/
theorem failureLine_of_refused {fault : Fault} (hclock : Timestamp.InRange s.clock)
    (shown : s.level.shows .debug = true) (hcomplaint : failure.complaint = .ok complaint)
    (hdump : complaint.dump = .error fault) : failureLine s failure = .error fault := by
  obtain ⟨moment, hmoment⟩ := Timestamp.exists_text hclock
  have hdata : (Log.errorData complaint).dump = .error fault := by
    unfold Log.errorData
    rw [Value.dump, Value.dumpFields, hdump]
    rfl
  unfold failureLine Log.line? Log.format
  rw [hcomplaint]
  change (if s.level.shows .debug = true then _ else _) = _
  -- the moment is written before the data, and the clock is in range
  rw [if_pos shown, hmoment]
  change (some <$> do
    let tree ← (Log.errorData complaint).dump
    return _ : Except Fault (Option String)) = _
  rw [hdata]
  rfl

theorem exists_failureLine {tree : Option Json} (hclock : Timestamp.InRange s.clock)
    (hcomplaint : failure.complaint = .ok complaint) (hdump : complaint.dump = .ok tree) :
    ∃ line, failureLine s failure = .ok line := by
  have hdata : ∃ tree, (Log.errorData complaint).dump = .ok tree := by
    unfold Log.errorData
    rw [Value.dump, Value.dumpFields, hdump]
    cases tree <;> exact ⟨_, rfl⟩
  obtain ⟨data, hdata⟩ := hdata
  unfold failureLine
  rw [hcomplaint]
  exact Log.exists_line? _ _ _ hclock rfl hdata

/-- **The debug line.** While the clock shows a date, it is made exactly if the failure can be
told. -/
theorem failureLine_eq_ok_iff (hclock : Timestamp.InRange s.clock) :
    (∃ line, failureLine s failure = .ok line) ↔ Told s.level failure := by
  cases hcomplaint : failure.complaint with
  | error fault =>
    -- the failure says nothing about itself
    refine iff_of_false ?_ ?_
    · rintro ⟨line, hline⟩
      unfold failureLine at hline
      rw [hcomplaint] at hline
      cases hline
    · rintro ⟨complaint, h, -⟩
      rw [hcomplaint] at h
      cases h
  | ok complaint =>
    cases hdump : complaint.dump with
    | ok tree =>
      exact iff_of_true (exists_failureLine hclock hcomplaint hdump)
        ⟨complaint, hcomplaint, fun _ => ⟨tree, hdump⟩⟩
    | error fault =>
      -- JSON refuses what the failure says, which matters where the line is shown
      by_cases shown : s.level.shows .debug = true
      · refine iff_of_false ?_ ?_
        · rintro ⟨line, hline⟩
          rw [failureLine_of_refused hclock shown hcomplaint hdump] at hline
          cases hline
        · rintro ⟨other, h, htree⟩
          rw [hcomplaint] at h
          obtain rfl := Except.ok.inj h
          obtain ⟨tree, htree⟩ := htree shown
          rw [hdump] at htree
          cases htree
      · refine iff_of_true ⟨none, ?_⟩ ⟨complaint, hcomplaint, fun h => absurd h shown⟩
        unfold failureLine
        rw [hcomplaint]
        exact if_neg shown

/-! ## The capacity -/

section Detection

variable {text : Option String} (htext : overrideText s = .ok text)
include htext

/-- A failing probe is asked once, and what comes of it is what comes of the debug line. -/
theorem detect_of_failure (h : text.bind wanted? = none) (failure : Value) :
    (∀ line, failureLine s failure = .ok line →
      detect s (some (.error failure))
        = { lines := line.toList, probeCalls := 1, result := resolve text s.cpuCount .absent }) ∧
    (∀ fault, failureLine s failure = .error fault →
      detect s (some (.error failure)) = { probeCalls := 1, result := .error fault }) := by
  unfold detect
  rw [htext]
  dsimp only
  rw [bind_override?, h]
  dsimp only [Option.map_none, Option.map_some, ProbeAnswer.effective]
  constructor
  · intro line hline
    rw [hline]
  · intro fault hfault
    rw [hfault]

end Detection

end Capacity

/-! ## The limiter -/

/-- **A failing probe.** Without a usable override the probe is asked once. If its failure can be
told, the limiter is that of a machine without a probe; if not, there is neither a capacity nor a
limiter. -/
theorem Limiter.create_of_failure {s : Surroundings} {text : Option String} {q : Rat}
    (htext : Capacity.overrideText s = .ok text) (hnone : text.bind Capacity.wanted? = none)
    (hcpu : s.cpuCount = .number (.finite q)) (hq : Number.Represented q)
    (hclock : Timestamp.InRange s.clock) (failure : Value) :
    let detection := Capacity.detect s (some (.error failure))
    let creation : Attempt (Limiter α) := create s none (some (.error failure))
    let machine := max 1 q.floor
    detection.probeCalls = 1 ∧ creation.probeCalls = 1 ∧
      (Capacity.Told s.level failure →
        detection.result = .ok ⟨.number (.finite (machine : Rat)), .cpu⟩ ∧
        detection.result = (Capacity.detect s none).result ∧
        ∃ limiter, creation.result = .ok limiter ∧ limiter.HasSize machine .cpu) ∧
      (¬ Capacity.Told s.level failure →
        ∃ fault, detection.result = .error fault ∧ creation.result = .error fault) := by
  have hcreate : (create s none (some (.error failure)) : Attempt (Limiter α))
      = announced s (Capacity.detect s (some (.error failure))).lines
          (Capacity.detect s (some (.error failure))).probeCalls
          ((Capacity.detect s (some (.error failure))).result.bind ofCapacity) := rfl
  have hresolve := Capacity.resolve_of_machine hq hnone
  obtain ⟨htold, hmute⟩ := Capacity.detect_of_failure htext hnone failure
  dsimp only
  rw [hcreate]
  -- whether the failure can be told is the same as whether its line can be written
  cases hline : Capacity.failureLine s failure with
  | ok line =>
    have told : Capacity.Told s.level failure :=
      (Capacity.failureLine_eq_ok_iff hclock).mp ⟨line, hline⟩
    -- a failure that was told leaves the machine's count
    obtain ⟨limiter, hsize, hresult⟩ := exists_announced (α := α) .cpu hclock
      (Capacity.machine_pos q) (Capacity.whole_machine hq) line.toList 1
    rw [htold line hline, hcpu, hresolve, Capacity.detect_without_probe htext, hcpu, hresolve]
    exact ⟨rfl, probeCalls_announced .., fun _ => ⟨rfl, rfl, limiter, hresult, hsize⟩,
      fun untold => absurd told untold⟩
  | error fault =>
    have untold : ¬ Capacity.Told s.level failure := by
      intro told
      obtain ⟨line, h⟩ := (Capacity.failureLine_eq_ok_iff hclock).mpr told
      rw [hline] at h
      cases h
    -- one that was not is the result of the detection, and nothing catches it
    rw [hmute fault hline]
    exact ⟨rfl, rfl, fun told => absurd told untold, fun _ => ⟨fault, rfl, rfl⟩⟩

/-- An ordinary error on a machine with eight CPUs. -/
theorem Limiter.create_of_failure_ordinaryError :
    let s : Surroundings := { clock := 0 }
    let failure := (Fault.plain "the daemon does not answer").value
    Capacity.overrideText s = .ok none ∧ s.cpuCount = .number (.finite 8) ∧
      Number.Represented 8 ∧ Timestamp.InRange s.clock ∧
      ∃ limiter : Limiter Nat, (create s none (some (.error failure))).result = .ok limiter ∧
        limiter.HasSize 8 .cpu := by
  intro s failure
  have htext : Capacity.overrideText s = .ok none := rfl
  have hcpu : s.cpuCount = .number (.finite 8) := rfl
  have height : Number.Represented 8 := ⟨8, 0, by decide, by decide, by decide, by norm_num⟩
  have hclock : Timestamp.InRange s.clock := by decide
  obtain ⟨-, -, htold, -⟩ := create_of_failure (α := Nat) htext rfl hcpu height hclock failure
  obtain ⟨-, -, limiter, hresult, hsize⟩ := htold (Capacity.told_fault _ _)
  exact ⟨htext, hcpu, height, hclock, limiter, hresult, hsize⟩

/-- **Two failures that cannot be told.** An object without a conversion to text leaves neither a
capacity nor a limiter. An error that holds an unbounded integer in the place of its message is
passed over until debug lines are shown. -/
theorem Capacity.detect_of_untoldFailures :
    let s : Surroundings := { clock := 0 }
    (detect s none).result = .ok ⟨.number 8, .cpu⟩ ∧
      (detect s (some (.error (.bare [])))).result = .error Value.noText ∧
      (Limiter.create (α := Nat) s none (some (.error (.bare [])))).result = .error Value.noText ∧
      (detect s (some (.error (.messaged (.integer 1))))).result = .ok ⟨.number 8, .cpu⟩ ∧
      (detect { s with level := .debug } (some (.error (.messaged (.integer 1))))).result
        = .error Value.noJson := by
  have hline : failureLine { clock := 0, level := .debug } (.messaged (.integer 1))
      = .error Value.noJson :=
    failureLine_of_refused (by decide) rfl rfl rfl
  refine ⟨rfl, rfl, rfl, rfl, ?_⟩
  rw [(detect_of_failure rfl rfl _).2 _ hline]

end BoundedJobs
