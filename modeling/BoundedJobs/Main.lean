import BoundedJobs.Cli.Program
import Std.Time.DateTime.Timestamp

/-!
# The command line

The thin layer around `Cli.World.execute`: it looks at the clock and at the one environment
variable that the settings name, writes the two streams, and hands back the exit code.

The program rehearses. It spawns nothing: docker counts as missing, every command of `run` as one
that exits at once with code zero, and the history lasts as long as the command line does.
-/

namespace BoundedJobs

namespace Cli

/-- The part of the environment that is read: the variable that holds an explicit cap. -/
def readEnvironment (settings : Settings) : IO Environment := do
  match settings.capVariable with
  | .error _ | .ok none => return []
  | .ok (some name) => return ((← IO.getEnv name).map fun text => (name, text)).toList

/-- The milliseconds since the epoch. -/
def readClock : IO Number := do
  let moment ← Std.Time.Timestamp.now
  return Number.ofInt moment.toMillisecondsSinceUnixEpoch.toInt

end Cli

end BoundedJobs

def main (arguments : List String) : IO UInt32 := do
  let settings := BoundedJobs.Settings.default
  let environment ← BoundedJobs.Cli.readEnvironment settings
  let clock ← BoundedJobs.Cli.readClock
  let world : BoundedJobs.Cli.World := { settings, environment, clock }
  let output := (world.execute arguments none).2
  (← IO.getStdout).putStr output.stdout
  (← IO.getStderr).putStr output.stderr
  return if output.failed then 1 else 0
