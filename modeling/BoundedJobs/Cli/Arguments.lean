import BoundedJobs.Cli.Help
import BoundedJobs.Cli.Suggestion

/-!
# Reading the command line

The arguments are read twice: first by the program, which takes its own options wherever they
stand, and then by the command, which gets what is left. Options may stand before and behind other
arguments; short ones may be bundled; two dashes end them.

* `Cli.sort` — the arguments sorted into recognised options, other arguments, and what follows the
  first option that is not known;
* `Cli.Invocation` — a command with its options, ready to be carried out;
* `Cli.read` — what a command line comes to: an invocation, a text to print, or a refusal.
-/

namespace BoundedJobs

namespace Cli

/-! ## Sorting the arguments -/

/-- An option that was given, with its value if it needs one. -/
structure Given where
  switch : Switch
  value : String := ""
  deriving Inhabited

/-- What arguments have been sorted into. -/
structure Sorted where
  given : List Given := []
  operands : List String := []
  unknown : List String := []
  deriving Inhabited

/-- Why sorting stopped early. -/
inductive Stop where
  | version
  | missingValue (switch : Switch)
  | badValue (switch : Switch) (value : String)

/-- One more option. The version is asked for at once, and a value must be a number. -/
def Sorted.give (sorted : Sorted) (switch : Switch) (value : String) : Except Stop Sorted :=
  if switch.choice = .version then .error .version
  else if switch.value.isSome ∧ (countOf? value).isNone then .error (.badValue switch value)
  else .ok { sorted with given := sorted.given ++ [{ switch, value }] }

/-- One more argument that is no known option. Behind an unknown option everything is kept
together. -/
def Sorted.put (sorted : Sorted) (argument : List Char) : Sorted :=
  let isOption := 1 < argument.length && argument.head? = some '-'
  if isOption || !sorted.unknown.isEmpty then
    { sorted with unknown := sorted.unknown ++ [String.ofList argument] }
  else { sorted with operands := sorted.operands ++ [String.ofList argument] }

/-- All arguments behind the two dashes that end the options. The dashes stay with arguments that
are still to be sorted by somebody else. -/
def Sorted.close (sorted : Sorted) (rest : List (List Char)) : Sorted :=
  let texts := rest.map String.ofList
  if sorted.unknown.isEmpty then { sorted with operands := sorted.operands ++ texts }
  else { sorted with unknown := sorted.unknown ++ "--" :: texts }

/-- The option that an argument writes in full. -/
def findSwitch? (switches : List Switch) (argument : List Char) : Option Switch :=
  switches.find? (·.isWritten argument)

/-- The option and the value that an argument of the form `--name=value` writes. -/
def assigned? (switches : List Switch) (argument : List Char) : Option (Switch × String) :=
  match argument with
  | '-' :: '-' :: rest =>
    let name := rest.takeWhile (· ≠ '=')
    match rest.dropWhile (· ≠ '=') with
    | '=' :: value =>
      -- two dashes and nothing in front of the sign name no option
      if name.isEmpty then none
      else
        (findSwitch? switches ('-' :: '-' :: name)).bind fun switch =>
          if switch.value.isSome then some (switch, String.ofList value) else none
    | _ => none
  | _ => none

/-- The length of arguments, with one more for each of them. -/
def size (arguments : List (List Char)) : Nat := arguments.flatten.length + arguments.length

/-- Sort arguments by the options that are known. -/
def sortFrom (switches : List Switch) (sorted : Sorted) : List (List Char) → Except Stop Sorted
  | [] => .ok sorted
  -- the end of the options
  | ['-', '-'] :: rest => .ok (sorted.close rest)
  | argument :: rest =>
    match findSwitch? switches argument with
    | some switch =>
      -- the next argument is the value, whatever it looks like
      if switch.value.isSome then
        match rest with
        | [] => .error (.missingValue switch)
        | value :: others => do
          let next ← sorted.give switch (String.ofList value)
          sortFrom switches next others
      else do
        let next ← sorted.give switch ""
        sortFrom switches next rest
    | none =>
      match argument with
      | '-' :: short :: more :: letters =>
        -- short options may stand together, the last of them with its value attached
        match if short = '-' then none else findSwitch? switches ['-', short] with
        | some switch =>
          if switch.value.isSome then do
            let next ← sorted.give switch (String.ofList (more :: letters))
            sortFrom switches next rest
          else do
            let next ← sorted.give switch ""
            sortFrom switches next (('-' :: more :: letters) :: rest)
        -- or a long one with its value behind the sign
        | none =>
          match assigned? switches argument with
          | some (switch, value) => do
            let next ← sorted.give switch value
            sortFrom switches next rest
          | none => sortFrom switches (sorted.put argument) rest
      | _ => sortFrom switches (sorted.put argument) rest
termination_by arguments => size arguments
decreasing_by all_goals simp [size] <;> omega

/-- Sort all arguments by the options that are known. -/
def sort (switches : List Switch) (arguments : List String) : Except Stop Sorted :=
  sortFrom switches {} (arguments.map String.toList)

/-! ## Invocations -/

/-- What a command is asked to do. -/
inductive Action where
  | run (commands : List String) (jobs : Option Number) (quiet record : Bool)
  | capacity (askDocker : Bool)
  | dockerInfo
  | history (limit : Option Number) (clear : Bool)
  deriving Inhabited

/-- A command with its options, as a command line asks for it. -/
structure Invocation where
  debug : Bool
  action : Action
  deriving Inhabited

/-- What a command line comes to. -/
inductive Reading where
  | invoke (invocation : Invocation)
  /-- A text for the output, and success. -/
  | print (text : String)
  /-- A text for the error stream, and failure. -/
  | refuse (text : String)

/-- The version of the program. -/
def version : String := "0.1.0"

/-- The line about an error. -/
def errorLine (text : String) : String := "error: " ++ text ++ "\n"

/-- What a reading comes to that stops before its end. -/
def Stop.reading : Stop → Reading
  | version => .print (Cli.version ++ "\n")
  | missingValue switch => .refuse (errorLine ("option '" ++ switch.flags ++ "' argument missing"))
  | badValue switch value =>
    .refuse (errorLine ("option '" ++ switch.flags ++ "' argument '" ++ value
      ++ "' is invalid. Must be a positive integer."))

/-- Whether an option was given. -/
def Sorted.has (sorted : Sorted) (choice : Choice) : Bool :=
  sorted.given.any (·.switch.choice = choice)

/-- The number that the last value of an option gives. -/
def Sorted.count? (sorted : Sorted) (choice : Choice) : Option Number :=
  ((sorted.given.filter (·.switch.choice = choice)).getLast?).bind
    fun given => countOf? given.value

/-- Whether help is asked for among arguments. -/
def asksHelp (arguments : List String) : Bool :=
  arguments.any fun a => helpSwitch.isWritten a.toList

/-- The refusal of an option that is not known to any of the given options. -/
def unknownOption (switches : List Switch) (argument : String) : Reading :=
  let suggestion :=
    if argument.startsWith "--" then Suggestion.text argument (switches.map fun s => "--" ++ s.long)
    else ""
  .refuse (errorLine ("unknown option '" ++ argument ++ "'" ++ suggestion))

/-- The action of a command with its options and operands. -/
def actionOf (command : Command) (sorted : Sorted) (operands : List String) : Action :=
  match command with
  | .run => .run operands (sorted.count? .jobs) (sorted.has .quiet) (!sorted.has .noHistory)
  | .capacity => .capacity (!sorted.has .noDocker)
  | .dockerInfo => .dockerInfo
  | .history => .history (sorted.count? .limit) (sorted.has .clear)

/-- What a command comes to with its operands so far and the arguments that are left for it. -/
def readCommand (command : Command) (debug : Bool) (operands arguments : List String) : Reading :=
  match sort command.switches arguments with
  | .error stop => stop.reading
  | .ok sorted =>
    let operands := operands ++ sorted.operands
    -- help is asked for even next to an option that is not known
    if asksHelp sorted.unknown then .print (Help.ofCommand command)
    else
      match sorted.unknown, command, operands with
      | argument :: _, _, _ =>
        unknownOption (command.switches ++ [helpSwitch] ++ programSwitches ++ [helpSwitch]) argument
      | [], .run, [] => .refuse (errorLine "missing required argument 'commands'")
      | [], _, _ => .invoke { debug, action := actionOf command sorted operands }

/-- The page that `help` shows. -/
def readHelp (topic : Option String) : Reading :=
  match topic with
  | none | some "" => .print Help.ofProgram
  | some name =>
    match Command.ofName? name with
    | some command => .print (Help.ofCommand command)
    | none => .refuse Help.ofProgram

/-- What a command line without a command comes to. -/
def readBare (sorted : Sorted) : Reading :=
  if sorted.operands.isEmpty && sorted.unknown.isEmpty then .refuse Help.ofProgram
  else if asksHelp sorted.unknown then .print Help.ofProgram
  else
    -- a word that is no command is refused before an option that is none
    match sorted.operands, sorted.unknown with
    | name :: _, _ =>
      .refuse (errorLine ("unknown command '" ++ name ++ "'"
        ++ Suggestion.text name (Command.all.map Command.name ++ ["help"])))
    | [], argument :: _ => unknownOption (programSwitches ++ [helpSwitch]) argument
    | [], [] => .refuse Help.ofProgram

/-- What a command line comes to. -/
def read (arguments : List String) : Reading :=
  match sort programSwitches arguments with
  | .error stop => stop.reading
  | .ok sorted =>
    -- the first word names the command, and the others are its operands
    match sorted.operands with
    | [] => readBare sorted
    | name :: operands =>
      match Command.ofName? name with
      | some command => readCommand command (sorted.has .debug) operands sorted.unknown
      | none => if name = "help" then readHelp operands.head? else readBare sorted

end Cli

end BoundedJobs
