import BoundedJobs.Cli.Arguments
import BoundedJobs.Proofs.Capacity.Sizing

/-!
# Command lines for a run and for the history

The options of `run` may stand in front of two dashes, with its commands behind them. Whatever the
commands are, such a command line is read as the run that it spells: what starts with a dash behind
the two dashes is no option. The limit for the list of runs is taken from its option in the same
way, and it is always a whole number above zero.

* `Cli.sortFrom_close`, `Cli.sortFrom_flag`, `Cli.sortFrom_put` — what sorting does with one
  argument;
* `Cli.sortFrom_next`, `Cli.sortFrom_attached`, `Cli.sortFrom_assigned` — the places where the value
  of an option can stand;
* `Cli.countOf?_eq` — the number that the value of an option gives;
* `Cli.runLine` — a command line for a run, and `Cli.read_runLine`, what it is read as;
* `Cli.limit_of_read` — the limits that command lines can set;
* `Cli.read_limit`, `Cli.read_clear` — command lines that list runs and that clear the history.
-/

namespace BoundedJobs

namespace Cli

variable {switches : List Switch} {sorted : Sorted} {argument : List Char}
  {rest : List (List Char)} {text : String}

/-! ## One argument -/

/-- Two dashes end the options. -/
theorem sortFrom_close :
    sortFrom switches sorted (['-', '-'] :: rest) = .ok (sorted.close rest) := by
  rw [sortFrom]

/-- A known option takes the next argument for its value, if it needs one. -/
theorem sortFrom_found (switch : Switch) (found : findSwitch? switches argument = some switch)
    (ne : argument ≠ ['-', '-']) :
    sortFrom switches sorted (argument :: rest) =
      if switch.value.isSome then
        match rest with
        | [] => .error (.missingValue switch)
        | value :: others =>
          (sorted.give switch (String.ofList value)).bind (sortFrom switches · others)
      else (sorted.give switch "").bind (sortFrom switches · rest) := by
  rw [sortFrom.eq_def]
  split
  · next heq => exact absurd heq (List.cons_ne_nil _ _)
  · next heq => exact absurd (List.cons.inj heq).1 ne
  · next heq =>
    obtain ⟨rfl, rfl⟩ := List.cons.inj heq
    rw [found]
    rfl

/-- An option without a value is taken. -/
theorem sortFrom_flag (switch : Switch) (found : findSwitch? switches argument = some switch)
    (ne : argument ≠ ['-', '-']) (flag : switch.value = none) (choice : switch.choice ≠ .version) :
    sortFrom switches sorted (argument :: rest)
      = sortFrom switches { sorted with given := sorted.given ++ [{ switch }] } rest := by
  have hgive : sorted.give switch ""
      = .ok { sorted with given := sorted.given ++ [{ switch }] } := by
    unfold Sorted.give
    rw [if_neg choice, if_neg (by simp [flag])]
  rw [sortFrom_found switch found ne, flag, hgive]
  rfl

/-- An option with a value takes the next argument for it. -/
theorem sortFrom_next (switch : Switch) {value : List Char}
    (found : findSwitch? switches argument = some switch)
    (ne : argument ≠ ['-', '-']) (needs : switch.value.isSome = true) :
    sortFrom switches sorted (argument :: value :: rest)
      = (sorted.give switch (String.ofList value)).bind (sortFrom switches · rest) := by
  rw [sortFrom_found switch found ne, if_pos needs]

/-- An option with a value takes what follows its letter in the same argument. -/
theorem sortFrom_attached (switch : Switch) {short more : Char} {letters : List Char}
    (unknown : findSwitch? switches ('-' :: short :: more :: letters) = none) (ne : short ≠ '-')
    (found : findSwitch? switches ['-', short] = some switch)
    (needs : switch.value.isSome = true) :
    sortFrom switches sorted (('-' :: short :: more :: letters) :: rest)
      = (sorted.give switch (String.ofList (more :: letters))).bind (sortFrom switches · rest) := by
  rw [sortFrom.eq_def]
  split
  · next heq => exact absurd heq (List.cons_ne_nil _ _)
  · next heq => cases (List.cons.inj heq).1
  · next heq =>
    obtain ⟨rfl, rfl⟩ := List.cons.inj heq
    simp only [unknown, if_neg ne, found, if_pos needs]
    rfl

/-- An option with a value takes what follows the equals sign in the same argument. -/
theorem sortFrom_assigned (switch : Switch) {letter : Char} {name : List Char} {value : String}
    (unknown : findSwitch? switches ('-' :: '-' :: letter :: name) = none)
    (found : assigned? switches ('-' :: '-' :: letter :: name) = some (switch, value)) :
    sortFrom switches sorted (('-' :: '-' :: letter :: name) :: rest)
      = (sorted.give switch value).bind (sortFrom switches · rest) := by
  rw [sortFrom.eq_def]
  split
  · next heq => exact absurd heq (List.cons_ne_nil _ _)
  · next heq => cases (List.cons.inj heq).1
  · next heq =>
    obtain ⟨rfl, rfl⟩ := List.cons.inj heq
    simp only [unknown, if_true, found]
    rfl

/-- The value of an option must be a number. -/
theorem give_of_accepted (switch : Switch) (choice : switch.choice ≠ .version)
    (accepted : (countOf? text).isSome = true) :
    sorted.give switch text
      = .ok { sorted with given := sorted.given ++ [{ switch, value := text }] } := by
  unfold Sorted.give
  refine (if_neg choice).trans (if_neg fun hrefused => ?_)
  rw [Option.isNone_iff_eq_none.mp hrefused.2] at accepted
  cases accepted

theorem sortFrom_value (switch : Switch) (found : findSwitch? switches argument = some switch)
    (ne : argument ≠ ['-', '-']) (needs : switch.value.isSome = true)
    (choice : switch.choice ≠ .version) (accepted : (countOf? text).isSome = true) :
    sortFrom switches sorted (argument :: text.toList :: rest)
      = sortFrom switches { sorted with given := sorted.given ++ [{ switch, value := text }] }
          rest := by
  rw [sortFrom_next switch found ne needs, String.ofList_toList,
    give_of_accepted switch choice accepted]
  rfl

/-- An argument that spells no option: neither in full, nor bundled, nor with a value behind an
equals sign. -/
structure Foreign (switches : List Switch) (argument : List Char) : Prop where
  ne : argument ≠ ['-', '-']
  unknown : findSwitch? switches argument = none
  unbundled : ∀ short more letters, argument = '-' :: short :: more :: letters →
    (if short = '-' then none else findSwitch? switches ['-', short]) = none
  unassigned : assigned? switches argument = none

/-- An argument that spells no option is put aside. -/
theorem sortFrom_put (h : Foreign switches argument) :
    sortFrom switches sorted (argument :: rest)
      = sortFrom switches (sorted.put argument) rest := by
  rw [sortFrom.eq_def]
  split
  · next heq => exact absurd heq (List.cons_ne_nil _ _)
  · next heq => exact absurd (List.cons.inj heq).1 h.ne
  · next heq =>
    obtain ⟨rfl, rfl⟩ := List.cons.inj heq
    rw [h.unknown]
    dsimp only
    split
    · next short more letters _ =>
      -- neither its first letters nor what stands in front of a sign is an option
      rw [h.unbundled short more letters rfl]
      dsimp only
      rw [h.unassigned]
    · rfl

/-- What does not start with a dash spells no option. -/
theorem Foreign.of_head (h : argument.head? ≠ some '-') : Foreign switches argument where
  ne := fun heq => h (heq ▸ rfl)
  unknown := by
    refine List.find?_eq_none.mpr fun switch _ hwritten => ?_
    unfold Switch.isWritten at hwritten
    -- both spellings of an option start with a dash
    rcases Bool.or_eq_true_iff.mp hwritten with hshort | hlong
    · cases hc : switch.short with
      | none => simp [hc] at hshort
      | some c =>
        rw [hc] at hshort
        exact h (of_decide_eq_true hshort ▸ rfl)
    · exact h (of_decide_eq_true hlong ▸ rfl)
  unbundled := fun short more letters heq => absurd rfl (heq ▸ h)
  unassigned := by
    unfold assigned?
    split
    · exact absurd rfl h
    · rfl

/-! ## Values of options -/

/-- The number that the value of an option gives is the one that its digits say. -/
theorem countOf?_eq (text : String) : countOf? text = (Capacity.wanted? text).map Number.ofNat := by
  rw [← Capacity.override?_eq]
  unfold Capacity.override?
  split
  · next hempty =>
    rw [String.isEmpty_iff.mp hempty]
    rfl
  · rfl

/-- A value that gives a number does not start with a dash. -/
theorem foreign_of_countOf? (accepted : (countOf? text).isSome = true) :
    Foreign switches text.toList := by
  refine .of_head fun hhead => ?_
  obtain ⟨letters, hletters⟩ := List.head?_eq_some_iff.mp hhead
  have hnone : Capacity.digits? text = none := by
    unfold Capacity.digits?
    rw [hletters]
    rfl
  rw [countOf?_eq] at accepted
  unfold Capacity.wanted? at accepted
  rw [hnone] at accepted
  cases accepted

/-! ## A whole command line -/

/-- The options of a run as words. -/
def runOptions (jobs : Option String) (quiet record : Bool) : List String :=
  (jobs.elim [] fun text => ["-j", text]) ++ (if quiet then ["-q"] else [])
    ++ if record then [] else ["--no-history"]

/-- A command line that asks for a run: its options in front of two dashes, and the commands
behind. -/
def runLine (debug : Bool) (jobs : Option String) (quiet record : Bool) (commands : List String) :
    List String :=
  (if debug then ["--debug"] else []) ++ "run" :: runOptions jobs quiet record ++ "--" :: commands

section RunLine

variable {jobs : Option String} {quiet record : Bool}

/-- The program knows none of the options of a run. -/
theorem foreign_of_runOptions (accepted : ∀ text ∈ jobs, (countOf? text).isSome = true) :
    ∀ word ∈ runOptions jobs quiet record, Foreign programSwitches word.toList := by
  intro word hmem
  simp only [runOptions, List.mem_append] at hmem
  rcases hmem with (hmem | hmem) | hmem
  · cases jobs with
    | none => cases hmem
    | some text =>
      rcases List.mem_pair.mp hmem with rfl | rfl
      · exact ⟨by decide, rfl, (fun _ _ _ heq => by cases heq), rfl⟩
      · exact foreign_of_countOf? (accepted _ rfl)
  · cases quiet with
    | false => cases hmem
    | true =>
      obtain rfl := List.mem_singleton.mp hmem
      exact ⟨by decide, rfl, (fun _ _ _ heq => by cases heq), rfl⟩
  · cases record with
    | true => cases hmem
    | false =>
      obtain rfl := List.mem_singleton.mp hmem
      exact ⟨by decide, rfl, (fun _ _ _ heq => by cases heq; rfl), rfl⟩

/-- Arguments that spell no option are put aside one after the other. -/
theorem sortFrom_append {words : List String}
    (foreign : ∀ word ∈ words, Foreign switches word.toList) :
    sortFrom switches sorted (words.map String.toList ++ rest)
      = sortFrom switches ((words.map String.toList).foldl Sorted.put sorted) rest := by
  induction words generalizing sorted with
  | nil => rfl
  | cons word words ih =>
    obtain ⟨hfirst, hothers⟩ := List.forall_mem_cons.mp foreign
    rw [List.map_cons, List.cons_append, sortFrom_put hfirst, ih hothers]
    rfl

/-- The options of a run are put together. -/
theorem foldl_put_runOptions (given : List Given) (operands : List String) :
    ((runOptions jobs quiet record).map String.toList).foldl Sorted.put { given, operands }
      = { given, operands, unknown := runOptions jobs quiet record } := by
  cases jobs <;> cases quiet <;> cases record <;>
    simp [runOptions, Sorted.put]

/-- What the program takes from a command line for a run, and what it leaves to the command. -/
theorem sort_runLine (accepted : ∀ text ∈ jobs, (countOf? text).isSome = true)
    (debug quiet record : Bool) (commands : List String) :
    sort programSwitches (runLine debug jobs quiet record commands)
      = .ok (Sorted.close
          { given := if debug then [{ switch := programSwitches[1] }] else [],
            operands := ["run"], unknown := runOptions jobs quiet record }
          (commands.map String.toList)) := by
  -- the name of the command, its options and the two dashes come last in any case
  have hlast : ∀ given, sortFrom programSwitches { given }
      (("run" :: runOptions jobs quiet record ++ "--" :: commands).map String.toList)
        = .ok (Sorted.close
            { given, operands := ["run"], unknown := runOptions jobs quiet record }
            (commands.map String.toList)) := by
    intro given
    rw [List.cons_append, List.map_cons, List.map_append,
      sortFrom_put (.of_head (by decide)), sortFrom_append (foreign_of_runOptions accepted)]
    change sortFrom programSwitches
      (((runOptions jobs quiet record).map String.toList).foldl Sorted.put
        { given, operands := ["run"] }) (['-', '-'] :: commands.map String.toList) = _
    rw [foldl_put_runOptions, sortFrom_close]
  cases debug with
  | false => exact hlast []
  | true =>
    change sortFrom programSwitches {} ("--debug".toList ::
      ("run" :: runOptions jobs quiet record ++ "--" :: commands).map String.toList) = _
    rw [sortFrom_flag programSwitches[1] rfl (by decide) rfl (by decide)]
    exact hlast [{ switch := programSwitches[1] }]

/-- What `run` takes from its options. -/
def runGiven (jobs : Option String) (quiet record : Bool) : List Given :=
  (jobs.elim [] fun text => [{ switch := Command.run.switches[0], value := text }])
    ++ (if quiet then [{ switch := Command.run.switches[1] }] else [])
    ++ if record then [] else [{ switch := Command.run.switches[2] }]

theorem sortFrom_runOptions (accepted : ∀ text ∈ jobs, (countOf? text).isSome = true) :
    sortFrom Command.run.switches {} ((runOptions jobs quiet record).map String.toList ++ rest)
      = sortFrom Command.run.switches { given := runGiven jobs quiet record } rest := by
  -- the options are taken one after the other, each of them if it is given
  have hjobs : ∀ others, sortFrom Command.run.switches {}
      ((jobs.elim [] fun text => ["-j", text]).map String.toList ++ others)
        = sortFrom Command.run.switches
            { given := jobs.elim [] fun text =>
                [{ switch := Command.run.switches[0], value := text }] } others := by
    intro others
    cases jobs with
    | none => rfl
    | some text =>
      exact sortFrom_value Command.run.switches[0] rfl (by decide) rfl (by decide)
        (accepted text rfl)
  have hquiet : ∀ given others, sortFrom Command.run.switches { given }
      ((if quiet then ["-q"] else []).map String.toList ++ others)
        = sortFrom Command.run.switches
            { given := given ++ if quiet then [{ switch := Command.run.switches[1] }] else [] }
            others := by
    intro given others
    cases quiet with
    | false => rw [if_neg Bool.false_ne_true, if_neg Bool.false_ne_true, List.append_nil]; rfl
    | true =>
      exact sortFrom_flag Command.run.switches[1] rfl (by decide) rfl (by decide)
  have hrecord : ∀ given others, sortFrom Command.run.switches { given }
      ((if record then [] else ["--no-history"]).map String.toList ++ others)
        = sortFrom Command.run.switches
            { given := given ++ if record then [] else [{ switch := Command.run.switches[2] }] }
            others := by
    intro given others
    cases record with
    | true => rw [if_pos rfl, if_pos rfl, List.append_nil]; rfl
    | false =>
      exact sortFrom_flag Command.run.switches[2] rfl (by decide) rfl (by decide)
  unfold runOptions
  rw [List.map_append, List.map_append, List.append_assoc, List.append_assoc, hjobs, hquiet,
    hrecord]
  rfl

/-- The options of a run say what it is asked to do. -/
theorem actionOf_runGiven (operands commands : List String) :
    actionOf .run { given := runGiven jobs quiet record, operands } commands
      = .run commands (jobs.bind countOf?) quiet record := by
  cases jobs <;> cases quiet <;> cases record <;> rfl

/-- The command takes its options and its commands. -/
theorem readCommand_runOptions (accepted : ∀ text ∈ jobs, (countOf? text).isSome = true)
    (debug quiet record : Bool) {commands : List String} (ne : commands ≠ []) :
    readCommand .run debug [] (runOptions jobs quiet record ++ "--" :: commands)
      = .invoke { debug, action := .run commands (jobs.bind countOf?) quiet record } := by
  obtain ⟨first, others, rfl⟩ := List.exists_cons_of_ne_nil ne
  have hsort : sort Command.run.switches
      (runOptions jobs quiet record ++ "--" :: first :: others)
        = .ok { given := runGiven jobs quiet record, operands := first :: others } := by
    unfold sort
    rw [List.map_append, sortFrom_runOptions accepted]
    change sortFrom Command.run.switches _
      (['-', '-'] :: (first :: others).map String.toList) = _
    -- behind the dashes nothing is sorted, whatever the commands look like
    rw [sortFrom_close]
    unfold Sorted.close
    simp
  unfold readCommand
  rw [hsort]
  exact congrArg (fun action => Reading.invoke { debug, action }) (actionOf_runGiven _ _)

/-- The command takes commands that it has already been given. -/
theorem readCommand_operands (debug : Bool) {commands : List String} (ne : commands ≠ []) :
    readCommand .run debug commands []
      = .invoke { debug, action := .run commands none false true } := by
  obtain ⟨first, others, rfl⟩ := List.exists_cons_of_ne_nil ne
  have hsort : sort Command.run.switches [] = .ok {} := by
    unfold sort
    rw [List.map_nil, sortFrom.eq_def]
  unfold readCommand
  rw [hsort]
  change Reading.invoke { debug, action := .run (first :: others ++ []) none false true } = _
  rw [List.append_nil]

theorem eq_of_runOptions_eq_nil (h : runOptions jobs quiet record = []) :
    jobs = none ∧ quiet = false ∧ record = true := by
  unfold runOptions at h
  cases jobs <;> cases quiet <;> cases record <;> simp_all

/-- **A command line for a run is read as the run**, whatever its commands are. -/
theorem read_runLine (accepted : ∀ text ∈ jobs, (countOf? text).isSome = true) (debug : Bool)
    {commands : List String} (ne : commands ≠ []) :
    read (runLine debug jobs quiet record commands)
      = .invoke { debug, action := .run commands (jobs.bind countOf?) quiet record } := by
  have htexts : (commands.map String.toList).map String.ofList = commands := by
    rw [List.map_map]
    simp
  have hdebug : ∀ operands unknown, Sorted.has
      { given := if debug then [{ switch := programSwitches[1] }] else [],
        operands, unknown } .debug = debug := by
    intro operands unknown
    cases debug <;> rfl
  have hsort := sort_runLine accepted debug quiet record commands
  unfold Sorted.close at hsort
  rw [htexts] at hsort
  unfold read
  cases hwords : runOptions jobs quiet record with
  | nil =>
    -- without options the commands follow the name of the command at once
    obtain ⟨rfl, rfl, rfl⟩ := eq_of_runOptions_eq_nil hwords
    rw [hsort]
    exact (congrArg (readCommand .run · commands []) (hdebug _ _)).trans
      (readCommand_operands debug ne)
  | cons word words =>
    have hcommand := readCommand_runOptions accepted debug quiet record ne
    rw [hwords] at hsort hcommand
    rw [hsort]
    exact (congrArg (readCommand .run · [] _) (hdebug _ _)).trans hcommand

end RunLine

/-! ## Command lines that ask for the history -/

section History

variable {arguments : List String} {invocation : Invocation} {limit : Number}

theorem Stop.reading_ne_invoke (stop : Stop) : stop.reading ≠ .invoke invocation := by
  cases stop <;> simp [Stop.reading]

theorem readBare_ne_invoke (sorted : Sorted) : readBare sorted ≠ .invoke invocation := by
  unfold readBare
  split
  · simp
  · split
    · simp
    · split <;> simp [unknownOption]

theorem readHelp_ne_invoke (topic : Option String) : readHelp topic ≠ .invoke invocation := by
  unfold readHelp
  split
  · simp
  · simp
  · split <;> simp

/-- What a command is asked to do is said by its options and operands. -/
theorem exists_actionOf_of_read (h : read arguments = .invoke invocation) :
    ∃ command sorted operands, invocation.action = actionOf command sorted operands := by
  -- every other way to read a line ends in a stop, so only a named command is left
  have hcommand : ∀ command debug operands rest,
      readCommand command debug operands rest = .invoke invocation →
        ∃ sorted all, invocation.action = actionOf command sorted all := by
    intro command debug operands rest h
    unfold readCommand at h
    split at h
    · exact absurd h (Stop.reading_ne_invoke _)
    · next sorted _ =>
      dsimp only at h
      split at h
      · cases h
      · split at h
        · cases h
        · cases h
        · cases h
          exact ⟨_, _, rfl⟩
  unfold read at h
  split at h
  · exact absurd h (Stop.reading_ne_invoke _)
  · split at h
    · exact absurd h (readBare_ne_invoke _)
    · split at h
      · next command _ => exact ⟨command, hcommand command _ _ _ h⟩
      · split at h
        · exact absurd h (readHelp_ne_invoke _)
        · exact absurd h (readBare_ne_invoke _)

/-- **A limit on a command line** is a whole number above zero, of no more than 53 binary digits. -/
theorem limit_of_read {debug clear : Bool}
    (h : read arguments = .invoke { debug, action := .history (some limit) clear }) :
    ∃ n : Nat, 0 < n ∧ n < 2 ^ 53 ∧ limit = .ofNat n := by
  obtain ⟨command, sorted, operands, haction⟩ := exists_actionOf_of_read h
  cases command with
  | run | capacity | dockerInfo => cases haction
  | history =>
    have hcount : sorted.count? .limit = some limit := (Action.history.inj haction).1.symm
    obtain ⟨given, -, hcount⟩ := Option.bind_eq_some_iff.mp hcount
    rw [countOf?_eq] at hcount
    obtain ⟨n, hn, rfl⟩ := Option.map_eq_some_iff.mp hcount
    obtain ⟨hpositive, hfew⟩ := Capacity.bounds_of_wanted? hn
    exact ⟨n, hpositive, hfew, rfl⟩

/-- **A command line that asks for the latest runs.** -/
theorem read_limit (accepted : countOf? text = some limit) :
    read ["history", "-l", text]
      = .invoke { debug := false, action := .history (some limit) false } := by
  have hsome : (countOf? text).isSome = true := by
    rw [accepted]
    rfl
  have hforeign : ∀ word ∈ ["-l", text], Foreign programSwitches word.toList := by
    intro word hmem
    rcases List.mem_pair.mp hmem with rfl | rfl
    · exact ⟨by decide, rfl, (fun _ _ _ heq => by cases heq), rfl⟩
    · exact foreign_of_countOf? hsome
  -- the program leaves the option to the command, with its value
  have hprogram : sort programSwitches ["history", "-l", text]
      = .ok { operands := ["history"], unknown := ["-l", text] } := by
    have hput : (["-l", text].map String.toList).foldl Sorted.put { operands := ["history"] }
        = { operands := ["history"], unknown := ["-l", text] } := by
      simp [Sorted.put]
    change sortFrom programSwitches {} ("history".toList :: ["-l", text].map String.toList) = _
    rw [sortFrom_put (.of_head (by decide)), ← List.append_nil (["-l", text].map String.toList),
      sortFrom_append hforeign]
    change sortFrom programSwitches ((["-l", text].map String.toList).foldl Sorted.put
      { operands := ["history"] }) [] = _
    rw [hput, sortFrom.eq_def]
  have hcommand : sort Command.history.switches ["-l", text]
      = .ok { given := [{ switch := Command.history.switches[0], value := text }] } := by
    change sortFrom Command.history.switches {} ("-l".toList :: text.toList :: []) = _
    rw [sortFrom_value Command.history.switches[0] rfl (by decide) rfl (by decide) hsome,
      sortFrom.eq_def]
    rfl
  unfold read
  rw [hprogram]
  change readCommand .history false [] ["-l", text] = _
  unfold readCommand
  rw [hcommand]
  change Reading.invoke { debug := false, action := .history (countOf? text) false } = _
  rw [accepted]

/-- **The command line that clears the history.** -/
theorem read_clear : read ["history", "--clear"]
    = .invoke { debug := false, action := .history none true } := by
  have hprogram : sort programSwitches ["history", "--clear"]
      = .ok { operands := ["history"], unknown := ["--clear"] } := by
    have hforeign : Foreign programSwitches "--clear".toList :=
      ⟨by decide, rfl, (fun _ _ _ heq => by cases heq; rfl), rfl⟩
    change sortFrom programSwitches {} ["history".toList, "--clear".toList] = _
    -- the program does not know the option and leaves it to the command
    rw [sortFrom_put (.of_head (by decide)), sortFrom_put hforeign, sortFrom.eq_def]
    rfl
  have hcommand : sort Command.history.switches ["--clear"]
      = .ok { given := [{ switch := Command.history.switches[1] }] } := by
    change sortFrom Command.history.switches {} ["--clear".toList] = _
    rw [sortFrom_flag Command.history.switches[1] rfl (by decide) rfl (by decide),
      sortFrom.eq_def]
    rfl
  unfold read
  rw [hprogram]
  change readCommand .history false [] ["--clear"] = _
  unfold readCommand
  rw [hcommand]
  rfl

end History

end Cli

end BoundedJobs
