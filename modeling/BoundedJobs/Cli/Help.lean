import BoundedJobs.Cli.Options

/-!
# Help pages

A help page shows how a command is called, what it does, and then lists of terms with their
descriptions. All descriptions of a page start in one column, two blanks behind the longest term,
and are broken between words so that no line is longer than 79 characters.

* `Help.broken` — a text broken into lines of a given width;
* `Help.page` — a page;
* `Help.ofProgram`, `Help.ofCommand` — the pages of the program and of its commands.
-/

namespace BoundedJobs

namespace Cli.Help

/-- A term with its description. -/
structure Entry where
  term : String
  summary : String

/-- Words put into lines of at most `width` characters, as many into each line as it holds. `line`
is the line that is being filled. -/
def fill (width : Nat) (line : String) : List String → List String
  | [] => [line]
  | word :: words =>
    if line.length + 1 + word.length ≤ width then fill width (line ++ " " ++ word) words
    else line :: fill width word words

/-- A text broken between its words into lines of at most `width` characters. -/
def broken (width : Nat) (text : String) : List String :=
  match text.splitOn " " with
  | [] => []
  | word :: words => fill width word words

def blanks (n : Nat) : String := String.ofList (List.replicate n ' ')

/-- The greatest length of a line. -/
def lineWidth : Nat := 79

/-- The lines of an entry whose description starts in `column`. -/
def entryText (column : Nat) (entry : Entry) : String :=
  let lines := broken (lineWidth - column) entry.summary
  let start := "  " ++ entry.term ++ blanks (column - 2 - entry.term.length)
  start ++ ("\n" ++ blanks column).intercalate lines

/-- A list of entries under its title. -/
def sectionText (column : Nat) (title : String) (entries : List Entry) : String :=
  if entries.isEmpty then ""
  else
    "\n" ++ title ++ ":\n" ++ String.join (entries.map fun entry => entryText column entry ++ "\n")

/-- A page: how the command is called, what it does, and its titled lists. -/
def page (usage summary : String) (lists : List (String × List Entry)) : String :=
  let entries := lists.flatMap (·.2)
  let column := entries.foldl (fun widest entry => max widest entry.term.length) 0 + 4
  "Usage: build-parallel " ++ usage ++ "\n\n" ++ summary ++ "\n"
    ++ String.join (lists.map fun (title, entries) => sectionText column title entries)

/-- The line about an option. -/
def switchEntry (s : Switch) : Entry := ⟨s.flags, s.summary⟩

/-- How a command is called, behind its name. -/
def callOf : Command → String
  | .run => "[options] <commands...>"
  | _ => "[options]"

/-- How a command stands in the list of commands; one without options of its own stands there
alone. -/
def commandEntry (command : Command) : Entry :=
  ⟨if command.switches.isEmpty then command.name else command.name ++ " " ++ callOf command,
   command.summary⟩

/-- The page of the program. -/
def ofProgram : String :=
  page "[options] [command]" "Run build jobs in parallel under a shared concurrency cap"
    [("Options", (programSwitches ++ [helpSwitch]).map switchEntry),
     ("Commands", Command.all.map commandEntry ++ [⟨"help [command]", "display help for command"⟩])]

/-- The page of a command. -/
def ofCommand (command : Command) : String :=
  let arguments : List Entry :=
    match command with
    | .run => [⟨"commands", "Commands to run, one argument each"⟩]
    | _ => []
  page (command.name ++ " " ++ callOf command) command.summary
    [("Arguments", arguments), ("Options", (command.switches ++ [helpSwitch]).map switchEntry)]

end Cli.Help

end BoundedJobs
