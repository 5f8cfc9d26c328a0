import BoundedJobs.Limiter
import BoundedJobs.Proofs.Docker.Probe
import BoundedJobs.Proofs.Log
import BoundedJobs.Proofs.Semaphore.Usage
import Mathlib.Logic.Function.Iterate

/-!
# Sizing a limiter from the machine

A limiter without an explicit cap is sized by an override from the environment, by the docker
daemon or by the CPU count of the machine. None of the stages in between can stand in its way: an
override that cannot be used is passed over, and so is a daemon that cannot be run, that prints
something else or that reports no fitting CPU count.

* `Capacity.wanted?` — the cap that a text asks for, told from its digits alone;
* `Docker.Execution.info?` — what a run of the docker command tells about the daemon;
* `Limiter.HasSize` — a limiter has so many slots, says so, and says where the number comes from;
* `Limiter.create_of_machine` — every machine gets a limiter, and of which size.
-/

namespace BoundedJobs

variable {α : Type}

/-! ## The override -/

namespace Capacity

/-- The cap that a text asks for: the value of its digits, from one up to the greatest number below
which all whole numbers are numbers. -/
def wanted? (text : String) : Option Nat :=
  (digits? text).bind fun digits =>
    if 0 < Json.decimalValue digits ∧ Json.decimalValue digits < 2 ^ 53 then
      some (Json.decimalValue digits)
    else none

theorem bounds_of_wanted? {text : String} {n : Nat} (h : wanted? text = some n) :
    0 < n ∧ n < 2 ^ 53 := by
  obtain ⟨digits, -, h⟩ := Option.bind_eq_some_iff.mp h
  split at h
  · next hbounds =>
    cases h
    exact hbounds
  · cases h

theorem le_safeBound_iff {n : Nat} :
    Number.le (Number.ofNat n) safeBound = true ↔ n < 2 ^ 53 := by
  have hbound : safeBound = .finite (((2 ^ 53 - 1 : Nat) : Int) : Rat) :=
    Number.ofNat_of_le (Nat.sub_le _ _)
  rw [hbound]
  by_cases hsmall : n ≤ Number.exactBound
  · rw [Number.ofNat_of_le hsmall, Number.le_intCast_iff]
    omega
  · -- rounding does not bring a greater number below the bound
    have hlarge : Number.exactBound < n := Nat.lt_of_not_le hsmall
    have hrounded : 2 ^ 53 ≤ Number.rounded n := Number.exactBound_le_rounded hlarge
    have hn : ¬ n < 2 ^ 53 := Nat.not_lt.mpr hlarge.le
    refine iff_of_false (fun h => ?_) hn
    rw [Number.ofNat_of_lt hlarge] at h
    split at h
    · cases h
    · rw [Number.le_intCast_iff] at h
      omega

/-- What passes as a cap has none of the three problems. -/
theorem positive_toOption (n : Number) :
    (positive n).toOption
      = if n.isInteger = true ∧ Number.lt 0 n = true ∧ Number.le n safeBound = true then some n
        else none := by
  unfold positive
  cases n.isInteger <;> cases Number.lt 0 n <;> cases Number.le n safeBound <;> rfl

/-- A number that comes from digits is a usable cap exactly within the two bounds. -/
theorem positive_ofNat (n : Nat) :
    (positive (Number.ofNat n)).toOption
      = if 0 < n ∧ n < 2 ^ 53 then some (Number.ofNat n) else none := by
  rw [positive_toOption]
  simp only [le_safeBound_iff]
  by_cases hsmall : n < 2 ^ 53
  · have hn : Number.ofNat n = .finite ((n : Int) : Rat) := Number.ofNat_of_le hsmall.le
    have hinteger : (Number.ofNat n).isInteger = true := by
      unfold Number.isInteger
      rw [hn, Number.int?_finite]
      rfl
    have hpositive : Number.lt 0 (Number.ofNat n) = true ↔ 0 < n := by
      have hzero : (0 : Number) = .finite ((0 : Int) : Rat) := rfl
      rw [hn, hzero, Number.lt_intCast_iff, Int.natCast_pos]
    simp only [hinteger, hpositive, true_and]
  · simp only [hsmall, and_false]

/-- **The override.** A text overrides the cap exactly if it asks for one. -/
theorem override?_eq (text : String) : override? text = (wanted? text).map Number.ofNat := by
  have hshape : (overrideShape (.text text)).toOption
      = (digits? text).bind fun digits =>
          (positive (Number.ofNat (Json.decimalValue digits))).toOption := by
    unfold overrideShape Shape.string
    dsimp only [bind, Except.bind]
    cases digits? text <;> rfl
  unfold override? wanted?
  rw [hshape]
  by_cases hempty : text.isEmpty = true
  · -- an empty text has no digits
    have hnone : digits? text = none := by
      rw [String.isEmpty_iff.mp hempty]
      rfl
    rw [if_pos hempty, hnone]
    rfl
  · rw [if_neg hempty, Option.map_bind]
    congr 1
    funext digits
    rw [positive_ofNat, Function.comp_apply]
    split <;> rfl

end Capacity

/-! ## The daemon -/

/-- What a run of the docker command tells about the daemon: nothing when the command fails or
prints something else. -/
def Docker.Execution.info? (execution : Execution) : Option Info :=
  match execution.error with
  | none => (Info.parse (.ofString execution.stdout)).toOption
  | some _ => none

theorem Docker.Execution.whole_of_info? {execution : Execution} {info : Info}
    (h : execution.info? = some info) : Number.Whole info.ncpu := by
  unfold info? at h
  split at h
  · cases hparse : Info.parse (.ofString execution.stdout) with
    | error fault => simp [hparse, Except.toOption] at h
    | ok other =>
      obtain rfl : other = info := by simpa [hparse, Except.toOption] using h
      exact Info.whole_ncpu hparse
  · cases h

/-- A new probe that has been asked for the information so many times. The command that it runs
knows nothing of the probe, so every call has returned before the next question. -/
def Docker.Probe.asked (count : Nat) : Probe := (fun probe => (probe.ask .info).returned)^[count] {}

/-- The first question starts the query that is kept. -/
theorem Docker.Probe.exists_asked_eq (count : Nat) :
    ∃ questions, asked (count + 1) = { questions, queries := 1, kept := some 0 } := by
  induction count with
  | zero => exact ⟨_, rfl⟩
  | succ count ih =>
    obtain ⟨questions, hasked⟩ := ih
    unfold asked at hasked ⊢
    rw [Function.iterate_succ_apply', hasked]
    exact ⟨_, rfl⟩

/-- **A query at most.** However often a new probe is asked, it runs the command once. -/
theorem Docker.Probe.queries_asked (count : Nat) : (asked count).queries = min count 1 := by
  cases count with
  | zero => rfl
  | succ count =>
    obtain ⟨questions, hasked⟩ := exists_asked_eq count
    rw [hasked]
    exact (Nat.min_eq_right (Nat.le_add_left 1 count)).symm

namespace Capacity

/-- A run of the docker command becomes the hint that the information gives, or the failure of an
error with a message. -/
theorem dockerAnswer_eq (execution : Docker.Execution) :
    (∃ info, execution.info? = some info ∧ dockerAnswer execution = .ok (hintOf info)) ∨
      (execution.info? = none ∧ ∃ fault : Fault, dockerAnswer execution = .error fault.value) := by
  obtain ⟨error, stdout, stderr⟩ := execution
  cases error with
  | some message =>
    -- the command failed, and what is made of it is an error with a message
    exact Or.inr ⟨rfl, _, rfl⟩
  | none =>
    unfold dockerAnswer Docker.Execution.info? Docker.Execution.answer Docker.interpret
    dsimp only
    cases Docker.Info.parse (.ofString stdout) with
    | ok info => exact Or.inl ⟨info, rfl, rfl⟩
    | error fault => exact Or.inr ⟨rfl, _, rfl⟩

/-- What docker reports when it is switched on. -/
def reported? (settings : Settings) (execution : Docker.Execution) : Option Docker.Info :=
  if settings.dockerEnabled then execution.info? else none

/-! ## The decision -/

theorem machine_pos (q : Rat) : 0 < max 1 q.floor := lt_max_of_lt_left Int.one_pos

/-- The CPU count that counts for a machine is a number of its own. -/
theorem whole_machine {q : Rat} (hq : Number.Represented q) : Number.Whole (max 1 q.floor) := by
  rcases max_choice 1 q.floor with hmax | hmax <;> rw [hmax]
  · exact Number.Whole.of_le (by decide)
  · exact hq.floor

theorem machineCount_eq {q : Rat} (hq : Number.Represented q) :
    machineCount (.finite q) = .finite ((max 1 q.floor : Int) : Rat) := by
  have hone : (1 : Number) = .finite ((1 : Int) : Rat) := rfl
  have hfloor : (Number.finite q).floor = .finite (q.floor : Rat) := hq.floor
  unfold machineCount Number.max
  rw [hone, hfloor, if_neg (by simp)]
  by_cases hlt : 1 < q.floor
  · rw [if_pos (Number.lt_intCast_iff.mpr hlt), max_eq_right hlt.le]
  · rw [if_neg (fun h => hlt (Number.lt_intCast_iff.mp h)), max_eq_left (Int.not_lt.mp hlt)]

/-- Of a machine with `m` CPUs a daemon with fewer lowers the count. -/
theorem lowers_iff {m : Int} {info : Docker.Info} (hncpu : Number.Whole info.ncpu) :
    lowers (.finite (m : Rat)) (reportedBy (hintOf info))
      = .ok (decide (0 < info.ncpu ∧ info.ncpu < m)) := by
  have hzero : (0 : Number) = .finite ((0 : Int) : Rat) := rfl
  have hreported : reportedBy (hintOf info) = .number (.finite (info.ncpu : Rat)) :=
    congrArg Value.number hncpu
  rw [hreported]
  change Except.ok (Number.lt 0 (.finite (info.ncpu : Rat))
    && Number.lt (.finite (info.ncpu : Rat)) (.finite (m : Rat))) = _
  rw [hzero]
  congr 1
  rw [Bool.eq_iff_iff, Bool.and_eq_true, Number.lt_intCast_iff, Number.lt_intCast_iff,
    decide_eq_true_iff]

theorem bind_override? (text : Option String) :
    text.bind override? = (text.bind wanted?).map Number.ofNat := by
  rw [Option.map_bind]
  congr 1
  funext text
  exact override?_eq text

variable {text : Option String} {q : Rat}

theorem resolve_of_override {n : Nat} (h : text.bind wanted? = some n) (cpuCount reported : Value) :
    resolve text cpuCount reported = .ok ⟨.number (Number.ofNat n), .override⟩ := by
  unfold resolve
  rw [bind_override?, h]
  rfl

/-- Nothing is reported: the CPU count of the machine decides. -/
theorem resolve_of_machine (hq : Number.Represented q) (h : text.bind wanted? = none) :
    resolve text (.number (.finite q)) .absent
      = .ok ⟨.number (.finite ((max 1 q.floor : Int) : Rat)), .cpu⟩ := by
  unfold resolve
  rw [bind_override?, h, ← machineCount_eq hq]
  rfl

/-- The daemon reports something: the lesser CPU count decides. -/
theorem resolve_of_reported {info : Docker.Info} (hq : Number.Represented q)
    (h : text.bind wanted? = none) (hncpu : Number.Whole info.ncpu) :
    resolve text (.number (.finite q)) (reportedBy (hintOf info))
      = .ok (if 0 < info.ncpu ∧ info.ncpu < max 1 q.floor then
          ⟨.number (.finite (info.ncpu : Rat)), .docker⟩
        else ⟨.number (.finite ((max 1 q.floor : Int) : Rat)), .cpu⟩) := by
  have hreported : reportedBy (hintOf info) = .number (.finite (info.ncpu : Rat)) :=
    congrArg Value.number hncpu
  unfold resolve
  rw [bind_override?, h]
  change (do
    if ← lowers (machineCount (.finite q)) (reportedBy (hintOf info)) then
      return ⟨reportedBy (hintOf info), .docker⟩
    else return ⟨.number (machineCount (.finite q)), .cpu⟩ : Except Fault Capacity) = _
  -- both counts are whole, so they are compared as integers
  rw [machineCount_eq hq, lowers_iff hncpu]
  change (if decide _ = true then _ else _) = _
  rw [hreported]
  simp only [decide_eq_true_eq]
  split <;> rfl

/-! ## The detection -/

section Detection

variable {s : Surroundings} (htext : overrideText s = .ok text)
include htext

/-- With a usable override nobody is asked. -/
theorem detect_of_override {n : Nat} (h : text.bind wanted? = some n) (probe : Option ProbeAnswer) :
    detect s probe = { result := .ok ⟨.number (Number.ofNat n), .override⟩ } := by
  unfold detect
  rw [htext]
  dsimp only
  rw [bind_override?, h, resolve_of_override h]
  rfl

theorem detect_without_probe :
    detect s none = { result := resolve text s.cpuCount .absent } := by
  unfold detect
  rw [htext]
  cases h : text.bind override? <;> simp [h]

/-- A probe that answers is believed, unless its answer cannot be handed over. -/
theorem detect_of_hint (h : text.bind wanted? = none) {hint : Value} (shown : hint ≠ .revoked) :
    detect s (some (.ok hint))
      = { probeCalls := 1, result := resolve text s.cpuCount (reportedBy hint) } := by
  have heffective : ProbeAnswer.effective (.ok hint) = .ok hint := by
    unfold ProbeAnswer.effective
    split
    · next heq => exact absurd (Except.ok.inj heq) shown
    · rfl
  unfold detect
  rw [htext]
  dsimp only
  rw [bind_override?, h, Option.map_some, heffective]
  rfl

/-- A probe that fails with an error leaves a line behind, and nothing else. -/
theorem detect_of_fault (hclock : Timestamp.InRange s.clock)
    (h : text.bind wanted? = none) (fault : Fault) :
    ∃ lines, detect s (some (.error fault.value))
      = { lines, probeCalls := 1, result := resolve text s.cpuCount .absent } := by
  obtain ⟨line, hline⟩ : ∃ line, failureLine s fault.value = .ok line :=
    Log.exists_line? _ _ _ hclock rfl rfl
  refine ⟨line.toList, ?_⟩
  unfold detect
  rw [htext]
  dsimp only
  rw [bind_override?, h]
  dsimp only [Option.map_none, Option.map_some, ProbeAnswer.effective]
  rw [hline]

end Detection

/-- **The size of a machine.** Without a usable override docker is asked once, unless it is switched
off, and the lesser CPU count is the cap. -/
theorem detect_of_machine {s : Surroundings} (execution : Docker.Execution)
    (htext : overrideText s = .ok text) (h : text.bind wanted? = none)
    (hcpu : s.cpuCount = .number (.finite q)) (hq : Number.Represented q)
    (hclock : Timestamp.InRange s.clock) :
    ∃ lines n source,
      detect s (daemonProbe s.settings execution)
        = { lines, probeCalls := if s.settings.dockerEnabled then 1 else 0,
            result := .ok ⟨.number (.finite ((n : Int) : Rat)), source⟩ } ∧
      0 < n ∧ Number.Whole n ∧
      ((∃ info, reported? s.settings execution = some info ∧ 0 < info.ncpu ∧
          info.ncpu < max 1 q.floor ∧ n = info.ncpu ∧ source = .docker) ∨
        ((∀ info, reported? s.settings execution = some info →
            ¬ (0 < info.ncpu ∧ info.ncpu < max 1 q.floor)) ∧
          n = max 1 q.floor ∧ source = .cpu)) := by
  have hmachine := whole_machine hq
  have hpos := machine_pos q
  -- three sources of the cap: docker is switched off, it has an answer, or it has none
  unfold daemonProbe reported?
  cases s.settings.dockerEnabled with
  | false =>
    refine ⟨[], max 1 q.floor, .cpu, ?_, hpos, hmachine, Or.inr ⟨?_, rfl, rfl⟩⟩
    · change detect s none = _
      rw [detect_without_probe htext, hcpu, resolve_of_machine hq h]
      rfl
    · intro info hinfo
      cases hinfo
  | true =>
    simp only [if_true]
    rcases dockerAnswer_eq execution with ⟨info, hinfo, hanswer⟩ | ⟨hnone, fault, hanswer⟩
    · -- the daemon has reported something
      have hncpu := Docker.Execution.whole_of_info? hinfo
      have hopen : hintOf info ≠ .revoked := nofun
      have hdetect := detect_of_hint htext h hopen
      rw [hcpu, resolve_of_reported hq h hncpu] at hdetect
      rw [hanswer]
      by_cases hfits : 0 < info.ncpu ∧ info.ncpu < max 1 q.floor
      · rw [if_pos hfits] at hdetect
        exact ⟨[], info.ncpu, .docker, hdetect, hfits.1, hncpu,
          Or.inl ⟨info, hinfo, hfits.1, hfits.2, rfl, rfl⟩⟩
      · -- a count that does not fit below the machine's is passed over
        rw [if_neg hfits] at hdetect
        refine ⟨[], max 1 q.floor, .cpu, hdetect, hpos, hmachine, Or.inr ⟨?_, rfl, rfl⟩⟩
        intro other hother
        rw [hinfo] at hother
        cases hother
        exact hfits
    · -- the daemon has failed
      obtain ⟨lines, hdetect⟩ := detect_of_fault htext hclock h fault
      rw [hcpu, resolve_of_machine hq h] at hdetect
      rw [hanswer]
      refine ⟨lines, max 1 q.floor, .cpu, hdetect, hpos, hmachine, Or.inr ⟨?_, rfl, rfl⟩⟩
      intro info hinfo
      rw [hnone] at hinfo
      cases hinfo

end Capacity

/-! ## The limiter -/

/-- A semaphore can have any positive whole number of slots. -/
theorem Semaphore.ofValue_of_whole {count : Nat} (hpos : 0 < count) :
    ofValue (.number (.finite ((count : Int) : Rat))) = .ok (idle (α := α) count hpos) :=
  ofValue_eq_ok_iff.mpr ⟨_, rfl, Number.int?_finite _, rfl⟩

/-- **The size of a limiter.** It has so many slots, says so, and says where the number comes
from. -/
structure Limiter.HasSize (limiter : Limiter α) (n : Int) (source : Capacity.Source) : Prop where
  slots : (limiter.slots.capacity : Int) = n
  capacity : limiter.capacity = .finite (n : Rat)
  source : limiter.source = source

namespace Limiter

theorem ofCapacity_of_whole {count : Nat} (hpos : 0 < count) (source : Capacity.Source) :
    ofCapacity ⟨.number (.finite ((count : Int) : Rat)), source⟩
      = .ok ({ slots := Semaphore.idle count hpos, source } : Limiter α) := by
  unfold ofCapacity ofValue
  rw [Semaphore.ofValue_of_whole hpos]
  rfl

/-- While the clock shows a date, a limiter that is made is announced. -/
theorem result_announced {s : Surroundings} (hclock : Timestamp.InRange s.clock)
    (before : List String) (probeCalls : Nat) (limiter : Limiter α) :
    (announced s before probeCalls (.ok limiter)).result = .ok limiter := by
  -- the announcement carries a text, which JSON does not refuse
  obtain ⟨line, hline⟩ : ∃ line, sizeLine s limiter = .ok line :=
    Log.exists_line? _ _ _ hclock rfl rfl
  unfold announced
  dsimp only
  rw [hline]

/-- A limiter of a positive size is made and announced. -/
theorem exists_announced {s : Surroundings} {n : Int} (source : Capacity.Source)
    (hclock : Timestamp.InRange s.clock) (hpos : 0 < n) (hwhole : Number.Whole n)
    (before : List String) (probeCalls : Nat) :
    ∃ limiter : Limiter α, limiter.HasSize n source ∧
      (announced s before probeCalls (ofCapacity ⟨.number (.finite n), source⟩)).result
        = .ok limiter := by
  obtain ⟨count, rfl⟩ := Int.eq_ofNat_of_zero_le hpos.le
  have hcount : 0 < count := Int.natCast_pos.mp hpos
  refine ⟨{ slots := Semaphore.idle count hcount, source }, ⟨rfl, hwhole, rfl⟩, ?_⟩
  rw [ofCapacity_of_whole hcount, result_announced hclock]

theorem probeCalls_announced (s : Surroundings) (before : List String) (probeCalls : Nat)
    (limiter : Except Fault (Limiter α)) :
    (announced s before probeCalls limiter).probeCalls = probeCalls := by
  unfold announced
  split
  · rfl
  · split <;> rfl

/-- **Every machine gets a limiter.** It has the size that a usable override asks for, and then
docker is left alone. Otherwise docker runs once, or not at all when it is switched off, and the
limiter has as many slots as the daemon has CPUs, if that is a positive number below that of the
machine, and else as many as the machine has. -/
theorem create_of_machine {s : Surroundings} {execution : Docker.Execution} {name : Option String}
    {q : Rat} (hname : s.settings.capVariable = .ok name)
    (hcpu : s.cpuCount = .number (.finite q)) (hq : Number.Represented q)
    (hclock : Timestamp.InRange s.clock) :
    ∃ limiter : Limiter α,
      let attempt : Attempt (Limiter α) :=
        create s none (Capacity.daemonProbe s.settings execution)
      let runs := (Docker.Probe.asked attempt.probeCalls).queries
      let text := name.bind (Json.lookupLast · s.environment)
      let machine := max 1 q.floor
      let reported? := Capacity.reported? s.settings execution
      attempt.result = .ok limiter ∧
        (∀ n : Nat, text.bind Capacity.wanted? = some n →
          limiter.HasSize n .override ∧ runs = 0) ∧
        (text.bind Capacity.wanted? = none →
          runs = (if s.settings.dockerEnabled then 1 else 0) ∧
          1 ≤ limiter.slots.capacity ∧ (limiter.slots.capacity : Int) ≤ machine ∧
          (∀ info, reported? = some info → 0 < info.ncpu → info.ncpu < machine →
            limiter.HasSize info.ncpu .docker) ∧
          ((∀ info, reported? = some info → ¬ (0 < info.ncpu ∧ info.ncpu < machine)) →
            limiter.HasSize machine .cpu)) := by
  have htext : Capacity.overrideText s = .ok (name.bind (Json.lookupLast · s.environment)) := by
    unfold Capacity.overrideText
    rw [hname]
    rfl
  -- what is printed and how often the probe is asked is beside the point from here on
  have hcreate : ∀ probe, (create s none probe : Attempt (Limiter α))
      = announced s (Capacity.detect s probe).lines (Capacity.detect s probe).probeCalls
          ((Capacity.detect s probe).result.bind ofCapacity) := fun _ => rfl
  -- an override decides alone; without one the machine and the daemon do
  cases hwanted : (name.bind (Json.lookupLast · s.environment)).bind Capacity.wanted? with
  | some n =>
    obtain ⟨text, -, htext'⟩ := Option.bind_eq_some_iff.mp hwanted
    obtain ⟨hpos, hbound⟩ := Capacity.bounds_of_wanted? htext'
    have hn : Number.ofNat n = .finite ((n : Int) : Rat) := Number.ofNat_of_le hbound.le
    obtain ⟨limiter, hsize, hresult⟩ := exists_announced .override hclock
      (Int.natCast_pos.mpr hpos) hn [] 0
    refine ⟨limiter, ?_⟩
    dsimp only
    -- the probe is not asked, so the command is not run
    rw [hcreate, Capacity.detect_of_override htext hwanted, hn, probeCalls_announced, hwanted]
    refine ⟨hresult, ?_, fun h => absurd h (by simp)⟩
    intro m hm
    obtain rfl := Option.some.inj hm
    exact ⟨hsize, rfl⟩
  | none =>
    obtain ⟨lines, n, source, hdetect, hpos, hwhole, hcases⟩ :=
      Capacity.detect_of_machine execution htext hwanted hcpu hq hclock
    obtain ⟨limiter, hsize, hresult⟩ := exists_announced source hclock hpos hwhole lines
      (if s.settings.dockerEnabled then 1 else 0)
    refine ⟨limiter, ?_⟩
    dsimp only
    rw [hcreate, hdetect, probeCalls_announced, hwanted, Docker.Probe.queries_asked]
    -- the probe is asked once if docker is switched on, and a probe runs its command once
    have hruns : min (if s.settings.dockerEnabled then 1 else 0) 1
        = if s.settings.dockerEnabled then 1 else 0 := by split <;> rfl
    have hslots := hsize.slots
    -- the two last claims exclude each other: the size is the daemon's or the machine's
    rcases hcases with ⟨info, hinfo, hlow, hhigh, rfl, rfl⟩ | ⟨hnone, rfl, rfl⟩
    · refine ⟨hresult, fun _ h => absurd h (by simp), fun _ => ⟨hruns, by omega, by omega, ?_, ?_⟩⟩
      · intro other hother _ _
        rw [hinfo] at hother
        obtain rfl := Option.some.inj hother
        exact hsize
      · intro h
        exact absurd ⟨hlow, hhigh⟩ (h info hinfo)
    · refine ⟨hresult, fun _ h => absurd h (by simp), fun _ => ⟨hruns, by omega, by omega, ?_, ?_⟩⟩
      · intro info hinfo hlow hhigh
        exact absurd ⟨hlow, hhigh⟩ (hnone info hinfo)
      · intro _
        exact hsize

/-- A machine with eight CPUs and no override, whose daemon has three. -/
theorem create_of_machine_smallDaemon :
    let s : Surroundings := { clock := 0 }
    let execution : Docker.Execution := { error := none, stdout := "\x7b\"NCPU\":3\x7d" }
    s.settings.capVariable = .ok (some "MAX_PARALLEL") ∧ s.cpuCount = .number (.finite 8) ∧
      Number.Represented 8 ∧ Timestamp.InRange s.clock ∧
      ∃ limiter : Limiter Nat,
        (create s none (Capacity.daemonProbe s.settings execution)).result = .ok limiter ∧
          limiter.HasSize 3 .docker := by
  intro s execution
  have hname : s.settings.capVariable = .ok (some "MAX_PARALLEL") := rfl
  have hcpu : s.cpuCount = .number (.finite 8) := rfl
  have height : Number.Represented 8 := ⟨8, 0, by decide, by decide, by decide, by norm_num⟩
  have hclock : Timestamp.InRange s.clock := by decide
  refine ⟨hname, hcpu, height, hclock, ?_⟩
  obtain ⟨limiter, hresult, -, hsized⟩ :=
    @create_of_machine Nat s execution _ _ hname hcpu height hclock
  obtain ⟨-, -, -, hdocker, -⟩ := hsized rfl
  have hreported : Capacity.reported? s.settings execution
      = some { operatingSystem := .ofString "", labels := [], ncpu := 3, memTotal := 0 } := by
    decide +kernel
  -- three is positive and less than eight, so the daemon decides
  exact ⟨limiter, hresult, hdocker _ hreported (by decide) (by decide +kernel)⟩

end Limiter

end BoundedJobs
