import BoundedJobs.Capacity.Override
import BoundedJobs.Docker.Probe
import BoundedJobs.Surroundings

/-!
# The cap of a machine

How many jobs may run at once is decided by the first of these that applies: a usable override
from the environment; the CPU count that a probe reports, when it is positive and smaller than
that of the machine; the CPU count of the machine, rounded down and at least one.

The two CPU counts come from outside and may be any values. That of the machine is turned into a
number; a reported one is only compared, and becomes the cap as it is. Whoever uses the cap has to
check it.

* `Capacity.resolve` — the decision from the three inputs, refused only when a CPU count cannot be
  read or compared;
* `Capacity.detect` — the decision from the environment and a probe, which is asked only when
  there is no usable override and whose failure leaves one debug line behind.
-/

namespace BoundedJobs

/-- Where a cap comes from. -/
inductive Capacity.Source where
  | override
  | cpu
  | docker
  deriving DecidableEq, Inhabited

def Capacity.Source.name : Source → String
  | override => "override"
  | cpu => "cpu"
  | docker => "docker"

/-- How many jobs may run at once, and why so many. -/
structure Capacity where
  maxParallel : Value
  source : Capacity.Source
  deriving Inhabited

namespace Capacity

/-- The CPU count that counts for a machine: rounded down, and at least one. -/
def machineCount (cpuCount : Number) : Number := Number.max 1 cpuCount.floor

/-- Whether a reported CPU count lowers that of the machine. An absent one does not. -/
def lowers (machine : Number) (reported : Value) : Except Fault Bool :=
  match reported with
  -- no hint is not the same as a hint that is no number
  | .absent => .ok false
  | _ => do
    let extent ← reported.extent
    return Number.lt 0 extent && Number.lt extent machine

/-- The decision from an override text, the CPU count and a reported CPU count. -/
def resolve (overrideText : Option String) (cpuCount reported : Value) : Except Fault Capacity :=
  match overrideText.bind override? with
  | some cap => .ok ⟨.number cap, .override⟩
  | none => do
    let machine := machineCount (← cpuCount.toNumber)
    -- the reported count becomes the cap as it is, not rounded down
    if ← lowers machine reported then return ⟨reported, .docker⟩
    else return ⟨.number machine, .cpu⟩

/-- What a probe comes to: a hint, or the value it failed with. -/
abbrev ProbeAnswer := Except Value Value

/-- What a probe comes to for whoever waits for it: a revoked value cannot be handed over. -/
def ProbeAnswer.effective : ProbeAnswer → ProbeAnswer
  | .ok .revoked => .error Value.noAccess.value
  | other => other

/-- The CPU count that a hint reports. -/
def reportedBy (hint : Value) : Value := hint.field "ncpu"

/-- The text of the environment variable that holds an explicit cap. -/
def overrideText (s : Surroundings) : Except Fault (Option String) := do
  let name ← s.settings.capVariable
  return name.bind fun name => Json.lookupLast name s.environment

/-- The debug line about a probe that failed with `failure`. -/
def failureLine (s : Surroundings) (failure : Value) : Except Fault (Option String) := do
  let complaint ← failure.complaint
  Log.line? s.clock s.level .debug "Capacity hint unavailable, using local CPU count"
    (Log.errorData complaint)

/-- The cap that the environment and a probe come to. -/
def detect (s : Surroundings) (probe : Option ProbeAnswer) : Attempt Capacity :=
  match overrideText s with
  | .error fault => { result := .error fault }
  | .ok text =>
    match text.bind override?, probe.map ProbeAnswer.effective with
    -- the probe is asked only where its answer can matter
    | none, some (.ok hint) =>
      { probeCalls := 1, result := resolve text s.cpuCount (reportedBy hint) }
    | none, some (.error failure) =>
      -- the text for the line may itself be refused, and then the failure does escape
      match failureLine s failure with
      | .error fault => { probeCalls := 1, result := .error fault }
      | .ok line =>
        { lines := line.toList, probeCalls := 1, result := resolve text s.cpuCount .absent }
    -- there is an override, or nobody to ask
    | _, _ => { result := resolve text s.cpuCount .absent }

/-- The hint that a daemon's information holds. -/
def hintOf (info : Docker.Info) : Value := .object [("ncpu", .number (Number.ofInt info.ncpu))]

/-- The answer of a probe that asks the docker daemon. -/
def dockerAnswer (execution : Docker.Execution) : ProbeAnswer :=
  match Docker.interpret execution.answer with
  | .ok info => .ok (hintOf info)
  | .error fault => .error fault.value

/-- The probe that is used when none is given: docker, unless it is switched off. -/
def daemonProbe (settings : Settings) (execution : Docker.Execution) : Option ProbeAnswer :=
  if settings.dockerEnabled then some (dockerAnswer execution) else none

end Capacity

end BoundedJobs
