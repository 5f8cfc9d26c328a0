import BoundedJobs.Proofs.Capacity.Override
import BoundedJobs.Proofs.Cli.Arguments

/-!
# The number of jobs on a command line

The cap of a run can be given in the environment and on the command line, and both places know the
same texts. On the command line the text stands behind the option, in an argument of its own or in
the same one. Whatever it is, the option takes it as its value, and then it is a cap or the command
line is refused.

* `Cli.GivesJobs` — the four ways to give the option for the number of jobs a value;
* `Cli.GivesJobs.sortFrom_eq` — in all of them the option takes the text as its value;
* `Cli.GivesJobs.read_eq` — what a command line comes to that gives the option a value;
* `Cli.jobs_of_override` — both places know exactly the texts that write a number in range.
-/

namespace BoundedJobs

namespace Cli

variable {text : String} {words commands : List String} {sorted : Sorted}
  {rest : List (List Char)}

/-- The option for the number of jobs. -/
abbrev jobsSwitch : Switch := Command.run.switches.head (List.cons_ne_nil _ _)

/-- **The ways to give the option for the number of jobs a value.** An argument of its own must not
spell an option of the program, which would take it before the command sees it. A letter with
nothing behind it would take the next argument. -/
inductive GivesJobs (text : String) : List String → Prop where
  | next (foreign : Foreign programSwitches text.toList) : GivesJobs text ["-j", text]
  | nextLong (foreign : Foreign programSwitches text.toList) : GivesJobs text ["--jobs", text]
  | attached (ne : text ≠ "") : GivesJobs text ["-j" ++ text]
  | assigned : GivesJobs text ["--jobs=" ++ text]

namespace GivesJobs

theorem toList_attached (text : String) : ("-j" ++ text).toList = '-' :: 'j' :: text.toList :=
  String.toList_append

theorem toList_assigned (text : String) :
    ("--jobs=" ++ text).toList = '-' :: '-' :: 'j' :: 'o' :: 'b' :: 's' :: '=' :: text.toList :=
  String.toList_append

/-- The program leaves the option to the command. -/
theorem foreign (h : GivesJobs text words) :
    ∀ word ∈ words, Foreign programSwitches word.toList := by
  -- the letter and the name are none of the program's, but a text in an argument of its own may be
  have hshort : Foreign programSwitches "-j".toList :=
    ⟨by decide, rfl, (fun _ _ _ heq => by cases heq), rfl⟩
  have hlong : Foreign programSwitches "--jobs".toList :=
    ⟨by decide, rfl, (fun _ _ _ heq => by cases heq; rfl), rfl⟩
  intro word hword
  cases h with
  | next htext =>
    rcases List.mem_pair.mp hword with rfl | rfl
    · exact hshort
    · exact htext
  | nextLong htext =>
    rcases List.mem_pair.mp hword with rfl | rfl
    · exact hlong
    · exact htext
  | attached =>
    obtain rfl := List.mem_singleton.mp hword
    rw [toList_attached]
    refine ⟨by simp, by simp [findSwitch?, programSwitches, Switch.isWritten], ?_, rfl⟩
    intro short more letters heq
    obtain ⟨rfl, -⟩ := List.cons.inj (List.cons.inj heq).2
    rfl
  | assigned =>
    obtain rfl := List.mem_singleton.mp hword
    rw [toList_assigned]
    refine ⟨by simp, by simp [findSwitch?, programSwitches, Switch.isWritten], ?_,
      by simp [assigned?, findSwitch?, programSwitches, Switch.isWritten]⟩
    intro short more letters heq
    obtain ⟨rfl, -⟩ := List.cons.inj (List.cons.inj heq).2
    rfl

/-- What the program leaves to the command starts with the option and is kept together. -/
theorem foldl_put (h : GivesJobs text words) (operands : List String) :
    (words.map String.toList).foldl Sorted.put { operands } = { operands, unknown := words } := by
  have hsingle : ∀ word : String, 1 < word.toList.length → word.toList.head? = some '-' →
      ([word].map String.toList).foldl Sorted.put { operands }
        = { operands, unknown := [word] } := by
    intro word hlong hdash
    simp [Sorted.put, hdash, hlong]
  cases h with
  | next | nextLong => simp [Sorted.put]
  | attached => exact hsingle _ (by simp) (by simp)
  | assigned => exact hsingle _ (by simp) (by simp)

theorem sort_program (h : GivesJobs text words) (commands : List String) :
    sort programSwitches ("run" :: words ++ "--" :: commands)
      = .ok { operands := ["run"], unknown := words ++ "--" :: commands } := by
  -- the program has put something aside already, so the separator is put aside as well
  have hwords : words ≠ [] := by cases h <;> exact List.cons_ne_nil _ _
  have hclose : Sorted.close { operands := ["run"], unknown := words } (commands.map String.toList)
      = { operands := ["run"], unknown := words ++ "--" :: commands } := by
    unfold Sorted.close
    rw [List.map_map, if_neg (by simpa using hwords)]
    simp
  unfold sort
  rw [List.cons_append, List.map_cons, List.map_append, sortFrom_put (.of_head (by decide)),
    sortFrom_append h.foreign]
  change sortFrom programSwitches ((words.map String.toList).foldl Sorted.put
    { operands := ["run"] }) (['-', '-'] :: commands.map String.toList) = _
  rw [h.foldl_put, sortFrom_close, hclose]

/-- **The option takes the text as its value**, wherever it stands. -/
theorem sortFrom_eq (h : GivesJobs text words) :
    sortFrom Command.run.switches sorted (words.map String.toList ++ rest)
      = (sorted.give jobsSwitch text).bind (sortFrom Command.run.switches · rest) := by
  cases h with
  | next =>
    change sortFrom _ sorted ("-j".toList :: text.toList :: rest) = _
    rw [sortFrom_next jobsSwitch rfl (by decide) rfl, String.ofList_toList]
  | nextLong =>
    change sortFrom _ sorted ("--jobs".toList :: text.toList :: rest) = _
    rw [sortFrom_next jobsSwitch rfl (by decide) rfl, String.ofList_toList]
  | attached ne =>
    -- an empty text behind `-j` would leave the option without its value
    obtain ⟨first, letters, htext⟩ : ∃ first letters, text.toList = first :: letters :=
      List.exists_cons_of_ne_nil fun hnil => ne (String.toList_eq_nil_iff.mp hnil)
    change sortFrom _ sorted (("-j" ++ text).toList :: rest) = _
    rw [toList_attached, htext, sortFrom_attached jobsSwitch ?_ (by decide) rfl rfl, ← htext,
      String.ofList_toList]
    simp [findSwitch?, Command.switches, Switch.isWritten]
  | assigned =>
    change sortFrom _ sorted (("--jobs=" ++ text).toList :: rest) = _
    -- both sides of `=` are found, and no shorter option is meant
    rw [toList_assigned, sortFrom_assigned jobsSwitch]
    · simp [findSwitch?, Command.switches, Switch.isWritten]
    · simp [assigned?, findSwitch?, Command.switches, Switch.isWritten]
      rfl

/-- What the command takes from a command line that gives the option a value. -/
theorem sort_command (h : GivesJobs text words) (commands : List String) :
    sort Command.run.switches (words ++ "--" :: commands)
      = if (countOf? text).isSome then
          .ok { given := [{ switch := jobsSwitch, value := text }], operands := commands }
        else .error (.badValue jobsSwitch text) := by
  unfold sort
  rw [List.map_append, h.sortFrom_eq]
  by_cases accepted : (countOf? text).isSome = true
  · rw [give_of_accepted jobsSwitch (by decide) accepted, if_pos accepted]
    change sortFrom _ _ (['-', '-'] :: commands.map String.toList) = _
    rw [sortFrom_close]
    unfold Sorted.close
    simp
  · have hrefused : Sorted.give {} jobsSwitch text = .error (.badValue jobsSwitch text) := by
      unfold Sorted.give
      rw [if_neg (by decide), if_pos ⟨rfl, by simpa using accepted⟩]
    rw [hrefused, if_neg accepted]
    rfl

/-- **A command line that gives the option a value** is read as a run with so many jobs, or refused
with the value in the message. -/
theorem read_eq (h : GivesJobs text words) (ne : commands ≠ []) :
    read ("run" :: words ++ "--" :: commands)
      = match countOf? text with
        | some jobs =>
          .invoke { debug := false, action := .run commands (some jobs) false true }
        | none =>
          .refuse (errorLine ("option '-j, --jobs <n>' argument '" ++ text
            ++ "' is invalid. Must be a positive integer.")) := by
  obtain ⟨first, others, rfl⟩ := List.exists_cons_of_ne_nil ne
  unfold read
  rw [h.sort_program]
  change readCommand .run false [] (words ++ "--" :: first :: others) = _
  unfold readCommand
  rw [h.sort_command]
  cases hcount : countOf? text with
  | none => rfl
  | some jobs =>
    change Reading.invoke ⟨false, .run (first :: others) (countOf? text) false true⟩ = _
    rw [hcount]

end GivesJobs

/-- **The language of caps.** A text overrides the cap exactly if it is a plus sign or nothing, then
digits, and their value lies between one and `2 ^ 53 - 1`; the cap is that value. The option for the
number of jobs takes the same texts for the same numbers, wherever its value stands, and refuses
every other text. -/
theorem jobs_of_override (text : String) :
    (∀ n, Capacity.override? text = some n ↔
      ∃ value : Nat, Capacity.Writes text value ∧ 1 ≤ value ∧ value ≤ 2 ^ 53 - 1 ∧
        n = .finite value) ∧
    ∀ words, GivesJobs text words → ∀ commands, commands ≠ [] →
      read ("run" :: words ++ "--" :: commands)
        = match Capacity.override? text with
          | some jobs =>
            .invoke { debug := false, action := .run commands (some jobs) false true }
          | none =>
            .refuse (errorLine ("option '-j, --jobs <n>' argument '" ++ text
              ++ "' is invalid. Must be a positive integer.")) := by
  refine ⟨fun n => Capacity.override?_eq_some_iff, fun words h commands ne => ?_⟩
  rw [h.read_eq ne, countOf?_eq, Capacity.override?_eq]

/-- A sign and zeros in front change nothing, in the environment and behind the option. -/
theorem jobs_of_override_zerosInFront :
    Capacity.Writes "+0012" 12 ∧ GivesJobs "+0012" ["-j+0012"] ∧ ["lint"] ≠ [] ∧
      Capacity.override? "+0012" = some (.finite 12) ∧
      read ["run", "-j+0012", "--", "lint"]
        = .invoke
            { debug := false, action := .run ["lint"] (some (.finite 12)) false true } := by
  have hwrites : Capacity.Writes "+0012" 12 :=
    ⟨[0, 0, 1, 2], by decide, Or.inr (by decide), by decide⟩
  have hgives : GivesJobs "+0012" ["-j+0012"] := .attached (by decide)
  have hjobs := jobs_of_override "+0012"
  have hoverride : Capacity.override? "+0012" = some (.finite 12) :=
    (hjobs.1 _).mpr ⟨12, hwrites, by norm_num, by norm_num, rfl⟩
  have hread := hjobs.2 _ hgives ["lint"] (by decide)
  rw [hoverride] at hread
  exact ⟨hwrites, hgives, by decide, hoverride, hread⟩

end Cli

end BoundedJobs
