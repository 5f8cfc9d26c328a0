import BoundedJobs.Proofs.Capacity.Sizing
import BoundedJobs.Proofs.Cli.Course

/-!
# What `capacity` says of `run`

The command `capacity` detects the cap of the machine and prints it; the command `run` without a
given size detects it too and makes its limiter from it. Both ask the same questions of the same
world, so what the one prints is what the other gets: the same number from the same source.

* `Number.Exact.machineCount`, `Capacity.exact_of_detect` — a detected cap is a number that keeps
  its value when the slots of a limiter are counted;
* `World.limiter_of_detect` — the limiter of `run` and the cap that `capacity` prints;
* `World.capacity_eq_limiter` — the two commands agree.
-/

namespace BoundedJobs

/-! ## Detected caps -/

theorem Number.Exact.machineCount (cpuCount : Number) :
    (Capacity.machineCount cpuCount).Exact := by
  have hone : (1 : Number).Exact := Number.exact_nearest (((1 : Nat) : Int) : Rat)
  have hfloor : cpuCount.floor.Exact := by
    cases cpuCount with
    | finite q => exact Number.exact_nearest _
    | infinity | nan => exact fun i hi => absurd hi (by simp [Number.floor, Number.int?])
  unfold Capacity.machineCount Number.max
  split
  · exact fun i hi => absurd hi (by simp [Number.int?])
  · split
    · exact hfloor
    · exact hone

namespace Capacity

variable {s : Surroundings} {text : Option String} {cpuCount reported : Value} {cap : Capacity}

/-- A cap that is a number of its own, if it is whole. -/
def IsExact (cap : Capacity) : Prop := ∃ n, cap.maxParallel = .number n ∧ n.Exact

/-- Whatever the decision is made from, the cap is exact if a reported count is. -/
theorem isExact_of_resolve (exact : reported = .absent ∨ ∃ n, reported = .number n ∧ n.Exact)
    (h : resolve text cpuCount reported = .ok cap) : cap.IsExact := by
  unfold resolve at h
  rw [bind_override?] at h
  cases hwanted : text.bind wanted? with
  -- a number that was asked for is small enough to be held exactly
  | some n =>
    rw [hwanted] at h
    obtain rfl := Except.ok.inj h
    exact ⟨_, rfl, Number.exact_nearest _⟩
  | none =>
    rw [hwanted] at h
    cases hcount : cpuCount.toNumber with
    | error fault =>
      rw [hcount] at h
      cases h
    | ok count =>
      rw [hcount] at h
      rcases exact with rfl | ⟨n, rfl, hn⟩
      · obtain rfl := Except.ok.inj h
        exact ⟨_, rfl, .machineCount count⟩
      · -- the reported count is taken only below the machine, else the machine decides
        change (if (Number.lt 0 n && Number.lt n (machineCount count)) = true then
            .ok ⟨.number n, .docker⟩
          else .ok ⟨.number (machineCount count), .cpu⟩ : Except Fault Capacity) = _ at h
        split at h
        · obtain rfl := Except.ok.inj h
          exact ⟨n, rfl, hn⟩
        · obtain rfl := Except.ok.inj h
          exact ⟨_, rfl, .machineCount count⟩

/-- **A detected cap is exact**, whatever the environment, the CPU count and the daemon say. -/
theorem isExact_of_detect {execution : Docker.Execution}
    (h : (detect s (daemonProbe s.settings execution)).result = .ok cap) : cap.IsExact := by
  have habsent : ∀ {text}, resolve text s.cpuCount .absent = .ok cap → cap.IsExact :=
    isExact_of_resolve (.inl rfl)
  unfold detect at h
  cases htext : overrideText s with
  | error fault =>
    rw [htext] at h
    cases h
  | ok text =>
    rw [htext] at h
    dsimp only at h
    split at h
    · next hint _ hanswer =>
      -- the only hint is what docker reports
      obtain ⟨answer, hprobe, heffective⟩ := Option.map_eq_some_iff.mp hanswer
      have hdocker : answer = dockerAnswer execution := by
        unfold daemonProbe at hprobe
        split at hprobe
        · exact (Option.some.inj hprobe).symm
        · cases hprobe
      rcases dockerAnswer_eq execution with ⟨info, -, hinfo⟩ | ⟨-, fault, hfault⟩
      · rw [hdocker, hinfo] at heffective
        obtain rfl : hintOf info = hint := Except.ok.inj heffective
        exact isExact_of_resolve (.inr ⟨_, rfl, Number.exact_nearest _⟩) h
      · rw [hdocker, hfault] at heffective
        cases heffective
    · next failure _ _ =>
      cases hline : failureLine s failure with
      | error fault =>
        rw [hline] at h
        cases h
      | ok line =>
        rw [hline] at h
        exact habsent h
    · exact habsent h

/-- The probe is asked once at most. -/
theorem probeCalls_detect_le (s : Surroundings) (probe : Option ProbeAnswer) :
    (detect s probe).probeCalls ≤ 1 := by
  unfold detect
  split
  · exact Nat.zero_le 1
  · split
    · exact Nat.le_refl 1
    · split <;> exact Nat.le_refl 1
    · exact Nat.zero_le 1

theorem probeCalls_detect_none (s : Surroundings) : (detect s none).probeCalls = 0 := by
  cases htext : overrideText s with
  | error fault =>
    unfold detect
    rw [htext]
  | ok text => rw [detect_without_probe htext]

end Capacity

namespace Limiter

variable {α : Type} {s : Surroundings} {before : List String} {probeCalls : Nat}
  {made : Except Fault (Limiter α)}

theorem announced_of_fault {fault : Fault} :
    announced s before probeCalls (.error fault : Except Fault (Limiter α))
      = { lines := before, probeCalls, result := .error fault } := rfl

/-- **A limiter for an exact cap** has the cap itself for its number of slots. -/
theorem eq_of_ofCapacity {cap : Capacity} (exact : cap.IsExact) {limiter : Limiter α}
    (h : ofCapacity cap = .ok limiter) : cap = ⟨.number limiter.capacity, limiter.source⟩ := by
  obtain ⟨n, hn, hint, hsource, -⟩ := ofCapacity_eq_ok h
  obtain ⟨m, hm, hexact⟩ := exact
  obtain rfl := Value.number.inj (hn.symm.trans hm)
  have hwhole : n = limiter.capacity := (Number.eq_of_int? hint).trans (hexact _ hint).symm
  cases cap
  exact congrArg₂ Capacity.mk (hn.trans (congrArg Value.number hwhole)) hsource

end Limiter

namespace Cli.World

open State

variable {w : World} {level : Log.Level} {jobs : Option Number} {limiter : Limiter Nat}

/-! ## What the commands write -/

theorem concluded_stdout (w : World) (report : Report) (record : Bool) (output : Output) :
    (w.concluded report record output).2.stdout = output.stdout ++ reportText report := by
  unfold concluded
  dsimp only
  split
  · rfl
  · split <;> rfl

theorem concluded_queries (w : World) (report : Report) (record : Bool) (output : Output) :
    (w.concluded report record output).2.queries = output.queries := by
  unfold concluded
  dsimp only
  split
  · rfl
  · split <;> rfl

theorem closing_queries (w : World) (base : Output) (record : Bool) (s : State) :
    (w.closing base record s).2.queries = base.queries := by
  unfold closing
  dsimp only
  split
  · exact concluded_queries _ _ _ _
  · rfl
  · rfl

/-- All that `run` prints is its report. -/
theorem closing_stdout (w : World) (base : Output) (record : Bool) (s : State) :
    (w.closing base record s).2.stdout = base.stdout ∨ ∃ report,
      answer? s = some (.ok report) ∧
        (w.closing base record s).2.stdout = base.stdout ++ reportText report := by
  unfold closing
  dsimp only
  split
  · next report hanswer => exact .inr ⟨report, hanswer, concluded_stdout _ _ _ _⟩
  · exact .inl rfl
  · exact .inl rfl

theorem capacity_queries (w : World) (level : Log.Level) (askDocker : Bool) :
    (w.capacity level askDocker).queries = (Capacity.detect (w.surroundings level)
      (if askDocker then w.probe else none)).probeCalls := by
  unfold World.capacity
  dsimp only
  split
  · rfl
  · split <;> rfl

/-! ## One detection -/

/-- The cap that both commands detect. -/
def detection (w : World) (level : Log.Level) : Attempt Capacity :=
  Capacity.detect (w.surroundings level) w.probe

theorem limiter_eq (w : World) (level : Log.Level) :
    w.limiter level none = Limiter.announced (w.surroundings level) (w.detection level).lines
      (w.detection level).probeCalls ((w.detection level).result.bind Limiter.ofCapacity) := rfl

/-- **The limiter of `run`** is that of the detected cap. -/
theorem detected_of_limiter (limits : (w.limiter level none).result = .ok limiter) :
    (w.detection level).result = .ok ⟨.number limiter.capacity, limiter.source⟩ := by
  rw [limiter_eq] at limits
  obtain ⟨cap, hcap, hlimiter⟩ := Limiter.exists_cap_of_bind (Limiter.eq_of_announced limits)
  rw [hcap, Limiter.eq_of_ofCapacity (Capacity.isExact_of_detect hcap) hlimiter]

/-- **What `capacity` prints** of the cap that both detect. -/
theorem capacity_stdout_of_limiter (limits : (w.limiter level none).result = .ok limiter) :
    (w.capacity level true).stdout
      = asLine (limiter.capacity.text ++ " (" ++ limiter.source.name ++ ")") := by
  have hdetected : (Capacity.detect (w.surroundings level) w.probe).result
      = .ok ⟨.number limiter.capacity, limiter.source⟩ := detected_of_limiter limits
  unfold World.capacity
  rw [if_pos rfl]
  dsimp only
  rw [hdetected]
  rfl

/-- A report of `run` names the number of slots. -/
theorem maxParallel_of_answered (o : Order) {report : Report}
    (h : answer? o.answered = some (.ok report)) : report.maxParallel = .ofNat o.capacity := by
  obtain ⟨n, hn⟩ := respond_eq_after o.armed (.settle o.request)
  obtain ⟨moves, hmoves⟩ := fireWithin_eq_after (fun due => due != .nan)
    (fun s => (answer? s).isSome) (o.armed.respond (.settle o.request)).alarms
    (o.armed.respond (.settle o.request))
  have hanswered : o.answered = o.first.after (List.replicate n .tick ++ moves) := by
    refine hmoves.trans ?_
    rw [hn, after_append]
    rfl
  rw [o.answer?_eq, hanswered] at h
  exact Crew.maxParallel_of_answer o.regular_armed o.request _ report h

/-- A cap that cannot be detected makes both commands fail in the same way. -/
theorem run_of_undetected {fault : Fault} (undetected : (w.detection level).result = .error fault)
    (commands : List String) (quiet record : Bool) (interrupt : Option Number) :
    w.run level commands none quiet record interrupt = (w, w.capacity level true) := by
  -- the limiter is made from what was detected, and fails with it
  have hlimiter : w.limiter level none
      = { lines := (w.detection level).lines, probeCalls := (w.detection level).probeCalls,
          result := .error fault } := by
    rw [limiter_eq, undetected]
    exact Limiter.announced_of_fault
  have hcapacity : w.capacity level true
      = ({ stderr := asLines (w.detection level).lines,
           queries := (w.detection level).probeCalls, level } : Output).escape fault := by
    unfold detection at undetected ⊢
    unfold World.capacity
    rw [if_pos rfl]
    dsimp only
    rw [undetected]
  have hrefused : (w.limiter level none).result = .error fault := by rw [hlimiter]
  rw [run_of_fault hrefused, hcapacity]
  unfold base
  rw [hlimiter]

/-- Nothing is detected where the settings name no environment variable for the override. -/
theorem undetected_of_settings {fault : Fault} (settings : w.settings.capVariable = .error fault) :
    (w.detection level).result = .error fault := by
  have htext : Capacity.overrideText (w.surroundings level) = .error fault := by
    unfold Capacity.overrideText
    change (w.settings.capVariable >>= _) = _
    rw [settings]
    rfl
  unfold detection Capacity.detect
  rw [htext]

/-- Where docker is switched off, it is not asked, and it makes no difference whether it may be. -/
theorem capacity_of_switchedOff (off : w.settings.dockerEnabled = false) :
    w.capacity level true = w.capacity level false ∧ (w.detection level).probeCalls = 0 := by
  have hprobe : w.probe = none := if_neg (by rw [off]; exact Bool.false_ne_true)
  constructor
  · unfold World.capacity
    rw [hprobe]
    rfl
  · unfold detection
    rw [hprobe]
    exact Capacity.probeCalls_detect_none _

/-- A machine with a positive whole number of CPUs gets a limiter, unless the settings name no
environment variable for the override. -/
theorem exists_limiter (level : Log.Level) {machine : Int} (positive : 0 < machine)
    (represented : Number.Represented machine) (cpu : w.cpuCount = .number (.finite machine))
    (clock : Timestamp.InRange w.clock) {name : Option String}
    (variable_eq : w.settings.capVariable = .ok name) :
    ∃ limiter, (w.limiter level none).result = .ok limiter ∧
      (limiter.slots.capacity < 2 ^ 53 ∨ (limiter.slots.capacity : Int) ≤ machine) := by
  obtain ⟨limiter, hresult, hoverride, hmachine⟩ :=
    @Limiter.create_of_machine Nat (w.surroundings level) w.docker name machine variable_eq cpu
      represented clock
  refine ⟨limiter, hresult, ?_⟩
  -- an override is below the bound itself, and whatever is detected is bounded by the machine
  cases hwanted : (name.bind (Json.lookupLast · w.environment)).bind Capacity.wanted? with
  | some n =>
    obtain ⟨text, -, htext⟩ := Option.bind_eq_some_iff.mp hwanted
    have hslots := (hoverride n hwanted).1.slots
    have hbound := (Capacity.bounds_of_wanted? htext).2
    exact .inl (by omega)
  | none =>
    obtain ⟨-, -, hle, -⟩ := hmachine hwanted
    rw [Rat.floor_intCast] at hle
    exact .inr (by omega)

/-- The report of `run` ends with the number of its slots. -/
theorem reportText_ends (report : Report) :
    ∃ front, reportText report = front ++ ("ms at -j" ++ report.maxParallel.text ++ "\n") := by
  refine ⟨asLines (report.tasks.map taskLine) ++ ("\n" ++ toString report.tasks.length
    ++ " job(s), " ++ toString report.failures.length ++ " failed, " ++ report.durationMs.text), ?_⟩
  unfold reportText asLines asLine summaryLine
  rw [List.map_append, String.join_append, List.map_singleton, String.join_cons, String.join_nil]
  simp only [String.append_assoc, String.append_empty]

/-- What `run` prints ends with the number of its slots, if it prints anything. -/
theorem run_stdout_ends (limits : (w.limiter level jobs).result = .ok limiter)
    (commands : List String) (quiet record : Bool) (interrupt : Option Number) :
    (w.run level commands jobs quiet record interrupt).2.stdout = "" ∨
      ∃ front, (w.run level commands jobs quiet record interrupt).2.stdout
        = front ++ ("ms at -j" ++ limiter.capacity.text ++ "\n") := by
  rw [run_eq limits]
  rcases closing_stdout w (w.base level jobs) record
    (w.order level commands quiet record interrupt limiter).answered with
    hnothing | ⟨report, hanswer, hprinted⟩
  · exact .inl hnothing
  · refine .inr ?_
    obtain ⟨front, hfront⟩ := reportText_ends report
    rw [hprinted, hfront, maxParallel_of_answered _ hanswer]
    exact ⟨"" ++ front, (String.append_assoc ..).symm⟩

/-- `run` prints something if everything is timed. -/
theorem run_stdout_ne_empty (limits : (w.limiter level jobs).result = .ok limiter)
    {commands : List String} {quiet record : Bool} {interrupt : Option Number}
    (timed : (w.order level commands quiet record interrupt limiter).IsTimed) :
    (w.run level commands jobs quiet record interrupt).2.stdout ≠ "" := by
  obtain ⟨later, hcourse, hanswered⟩ := Order.exists_course timed
  obtain ⟨report, ended, hreports⟩ := hcourse.exists_reports timed.now
  have hprinted : (w.run level commands jobs quiet record interrupt).2.stdout
      = "" ++ reportText report := by
    rw [run_eq limits, hanswered]
    unfold closing
    dsimp only
    rw [hreports.answer]
    exact concluded_stdout _ _ _ _
  -- the last line of a report is never empty
  obtain ⟨front, hfront⟩ := reportText_ends report
  rw [hprinted, hfront]
  intro hempty
  have := congrArg String.length hempty
  simp only [String.length_append] at this
  exact absurd this (by simp)

/-- **`capacity` tells the truth about `run`.** In every world and at every log level the cap that
`capacity` prints is that of the limiter which `run` makes when it is given no size, from the same
source, and the report of `run` ends with it; there is a report if everything is timed. Both
commands execute docker equally often, which is once at most, and not at all where it is switched
off: then it makes no difference whether `capacity` may ask it. A machine with a positive whole
number of CPUs has such a cap, or both commands fail in the same way. -/
theorem capacity_eq_limiter (w : World) (level : Log.Level) :
    let output := w.capacity level true
    let attempt := w.limiter level none
    (output.queries = attempt.probeCalls ∧ output.queries ≤ 1 ∧
      ∀ commands quiet record interrupt,
        (w.run level commands none quiet record interrupt).2.queries = output.queries) ∧
    (∀ limiter, attempt.result = .ok limiter →
      output.stdout = asLine (limiter.capacity.text ++ " (" ++ limiter.source.name ++ ")") ∧
      ∀ commands quiet record interrupt,
        let printed := (w.run level commands none quiet record interrupt).2.stdout
        (printed = "" ∨ ∃ front,
          printed = front ++ ("ms at -j" ++ limiter.capacity.text ++ "\n")) ∧
        ((w.order level commands quiet record interrupt limiter).IsTimed → printed ≠ "")) ∧
    (∀ machine : Int, 0 < machine → Number.Represented machine →
      w.cpuCount = .number (.finite machine) → Timestamp.InRange w.clock →
        (∃ limiter, attempt.result = .ok limiter) ∨
        ∃ fault, w.settings.capVariable = .error fault ∧
          ∀ commands quiet record interrupt,
            w.run level commands none quiet record interrupt = (w, output)) ∧
    (w.settings.dockerEnabled = false →
      output = w.capacity level false ∧ output.queries = 0) := by
  intro output attempt
  have hqueries : output.queries = (w.detection level).probeCalls := capacity_queries w level true
  have hasked : attempt.probeCalls = (w.detection level).probeCalls := by
    change (w.limiter level none).probeCalls = _
    rw [limiter_eq]
    exact Limiter.probeCalls_announced ..
  refine ⟨⟨hqueries.trans hasked.symm, hqueries ▸ Capacity.probeCalls_detect_le _ _,
    fun commands quiet record interrupt => ?_⟩, fun limiter limits => ?_,
    fun machine hpositive hrepresented hcpu hclock => ?_, fun hoff => ?_⟩
  · -- what comes after the limiter does not ask docker
    rw [hqueries, ← hasked]
    cases hresult : attempt.result with
    | error fault =>
      rw [run_of_fault hresult]
      rfl
    | ok limiter =>
      rw [run_eq hresult]
      exact closing_queries w (w.base level none) record _
  · exact ⟨capacity_stdout_of_limiter limits, fun commands quiet record interrupt =>
      ⟨run_stdout_ends limits commands quiet record interrupt, run_stdout_ne_empty limits⟩⟩
  · cases hvariable : w.settings.capVariable with
    | ok name =>
      obtain ⟨limiter, hlimiter, -⟩ :=
        exists_limiter level hpositive hrepresented hcpu hclock hvariable
      exact .inl ⟨limiter, hlimiter⟩
    | error fault => exact .inr ⟨fault, rfl, run_of_undetected (undetected_of_settings hvariable)⟩
  · obtain ⟨hsame, hnever⟩ := @capacity_of_switchedOff w level hoff
    exact ⟨hsame, hqueries.trans hnever⟩

/-- The daemon reports fewer CPUs than the machine has. -/
def smallDaemon : World where
  clock := 0
  docker := { error := none, stdout := "\x7b\"NCPU\":3\x7d" }

theorem capacity_eq_limiter_smallDaemon :
    let printed := (smallDaemon.run .info ["build"] none false true none).2.stdout
    (smallDaemon.capacity .info true).stdout = "3 (docker)\n" ∧
      (smallDaemon.capacity .info true).queries = 1 ∧
      printed ≠ "" ∧ ∃ front, printed = front ++ "ms at -j3\n" := by
  intro printed
  obtain ⟨-, hlimiter, hmachine, -⟩ := capacity_eq_limiter smallDaemon .info
  -- eight processors, so a limiter is made without a fault
  obtain ⟨limiter, hlimits⟩ := (hmachine 8 (by decide) ⟨8, 0, by decide, by decide, by decide,
    by norm_num⟩ rfl (by decide)).resolve_right fun ⟨fault, hfault, _⟩ => by cases hfault
  have hsize : (smallDaemon.limiter .info none).result.toOption.map
      (fun limiter => (limiter.slots.capacity, limiter.source)) = some (3, .docker) := by
    decide +kernel
  -- the daemon has fewer processors, and they decide
  rw [hlimits] at hsize
  obtain ⟨hcapacity, hsource⟩ := Prod.mk.inj (Option.some.inj hsize)
  obtain ⟨hstdout, hruns⟩ := hlimiter limiter hlimits
  obtain ⟨hends, hprints⟩ := hruns ["build"] false true none
  have horder : smallDaemon.order .info ["build"] false true none limiter
      = { world := smallDaemon, level := .info, commands := ["build"], quiet := false,
          record := true, interrupt := none, capacity := 3, positive := by decide } := by
    simp only [order, hcapacity]
  have htext : limiter.capacity.text = "3" := by
    unfold Limiter.capacity
    rw [hcapacity]
    decide +kernel
  -- the one command ends at once, so the run is timed and prints its report
  have hne : printed ≠ "" := by
    refine hprints ?_
    rw [horder]
    refine ⟨⟨0, by decide, rfl⟩, fun line hmem => ?_,
      fun _ hnone => absurd hnone (Option.not_mem_none _), by decide +kernel⟩
    rw [List.mem_singleton.mp hmem]
    exact .inl ⟨0, by decide, rfl⟩
  obtain ⟨front, hfront⟩ := hends.resolve_left hne
  refine ⟨?_, by decide +kernel, hne, front, ?_⟩
  · rw [hstdout, htext, hsource]
    decide +kernel
  · rw [htext] at hfront
    exact hfront

end Cli.World

end BoundedJobs
