import BoundedJobs.Log
import BoundedJobs.Settings

/-!
# The process around a piece of work

* `Surroundings` — what work reads without being told: settings, environment variables, the clock,
  the log level and the CPU count of the machine;
* `Attempt` — what came of some work: the lines it logged, how often it asked its probe, and its
  result.
-/

namespace BoundedJobs

/-- The environment variables of a process. -/
abbrev Environment := List (String × String)

/-- What work reads without being told. -/
structure Surroundings where
  settings : Settings := .default
  environment : Environment := []
  clock : Number
  level : Log.Level := .info
  /-- How many CPUs the machine has; it comes from outside and may be any value. -/
  cpuCount : Value := .number 8

/-- What came of some work. -/
structure Attempt (α : Type) where
  lines : List String := []
  probeCalls : Nat := 0
  result : Except Fault α

end BoundedJobs
