import BoundedJobs.Capacity.Override

/-!
# The options of the command line

The program has two options of its own and four commands, each with options. The same descriptions
serve for reading the command line and for the help pages.

* `Cli.Choice`, `Cli.Switch` — what an option means, and how it is written;
* `Cli.Command` — the commands, with the options that each of them knows;
* `Cli.countOf?` — the number that the value of an option gives.
-/

namespace BoundedJobs

namespace Cli

/-- What an option means. -/
inductive Choice where
  | version
  | debug
  | jobs
  | quiet
  | noHistory
  | noDocker
  | limit
  | clear
  | help
  deriving DecidableEq, Inhabited

/-- An option as it is written and described. -/
structure Switch where
  choice : Choice
  short : Option Char := none
  long : String
  /-- The name of its value, if it needs one. -/
  value : Option String := none
  summary : String
  deriving Inhabited

namespace Switch

/-- The forms of an option, as a help page shows them. -/
def flags (s : Switch) : String :=
  (s.short.elim "" fun c => "-" ++ String.ofList [c] ++ ", ") ++ "--" ++ s.long
    ++ s.value.elim "" fun name => " <" ++ name ++ ">"

/-- Whether an argument is one of the two forms of an option. -/
def isWritten (s : Switch) (argument : List Char) : Bool :=
  s.short.any (fun c => argument = ['-', c]) || argument = '-' :: '-' :: s.long.toList

end Switch

/-- The option that asks for help, which every command has. -/
def helpSwitch : Switch :=
  { choice := .help, short := some 'h', long := "help", summary := "display help for command" }

/-- The options of the program itself. -/
def programSwitches : List Switch :=
  [{ choice := .version, short := some 'V', long := "version",
     summary := "output the version number" },
   { choice := .debug, long := "debug", summary := "Enable debug logging" }]

/-- The commands of the program. -/
inductive Command where
  | run
  | capacity
  | dockerInfo
  | history
  deriving DecidableEq, Inhabited

namespace Command

def all : List Command := [run, capacity, dockerInfo, history]

def name : Command → String
  | run => "run"
  | capacity => "capacity"
  | dockerInfo => "docker-info"
  | history => "history"

def summary : Command → String
  | run => "Run shell commands in parallel and report every failure at the end"
  | capacity => "Show the concurrency cap this machine resolves to"
  | dockerInfo => "Show what the Docker daemon reports about itself"
  | history => "List recorded runs"

/-- The options that a command knows beside the one that asks for help. -/
def switches : Command → List Switch
  | run =>
    [{ choice := .jobs, short := some 'j', long := "jobs", value := some "n",
       summary := "Max parallel jobs (overrides detection)" },
     { choice := .quiet, short := some 'q', long := "quiet", summary := "Discard command output" },
     { choice := .noHistory, long := "no-history", summary := "Do not record this run" }]
  | capacity =>
    [{ choice := .noDocker, long := "no-docker", summary := "Skip asking the Docker daemon" }]
  | dockerInfo => []
  | history =>
    [{ choice := .limit, short := some 'l', long := "limit", value := some "n",
       summary := "Number of runs to show" },
     { choice := .clear, long := "clear", summary := "Delete all recorded runs" }]

/-- The command with a name. -/
def ofName? (name : String) : Option Command := all.find? (·.name == name)

end Command

/-- The number that the value of an option gives: an integer above zero, written as a cap is. -/
def countOf? (value : String) : Option Number := (Capacity.overrideShape (.text value)).toOption

end Cli

end BoundedJobs
