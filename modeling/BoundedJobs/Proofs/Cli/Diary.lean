import BoundedJobs.Proofs.Cli.Launch
import BoundedJobs.Proofs.Cli.Lines
import BoundedJobs.Proofs.History.Refinement
import Mathlib.Data.List.DropRight

/-!
# What `history` shows of earlier command lines

Launches of the program share one history and nothing else: each of them has a world of its own,
with its settings, its clock and its shell. A diary of the launches keeps, beside the history that
they leave behind, the runs that were put on record since the history was last cleared, each with
what its own launch printed. What `history` prints is then told from these runs alone.

A row of the history is written as JSON text and checked again when it is read, so the diary can be
read off the rows only as long as all times on record are finite.

* `AreRegular`, `Diary.after` — launches one after the other, and the diary of them;
* `Kept.line`, `Kept.HasLine`, `Diary.Lists` — what `history` is to print of the runs on record;
* `Diary.Holds` — the invariant: the rows are those of the runs on record, in their order;
* `Diary.Holds.step`, `Diary.holds_after` — one launch keeps it, and so do all;
* `Diary.shown_after` — the main theorem.
-/

namespace BoundedJobs

theorem Timestamp.InRange.isFinite {n : Number} (h : Timestamp.InRange n) : n.IsFinite := by
  cases n with
  | finite q => exact ⟨q, rfl⟩
  | infinity negative => cases negative <;> exact absurd h (by decide)
  | nan => exact absurd h (by decide)

namespace Cli

/-! ## Launches one after the other -/

/-- The runs that launches put on record. -/
def recordedBy (launches : List Launch) : List Recorded := launches.filterMap Launch.recorded?

theorem recordedBy_concat (launches : List Launch) (l : Launch) :
    recordedBy (launches ++ [l]) = recordedBy launches ++ l.recorded?.toList := by
  unfold recordedBy
  rw [List.filterMap_append]
  cases hlast : l.recorded? <;> simp [hlast]

/-- **Launches whose runs on record have names of their own and proper times**: no two of them have
the same identifier, all start at dates, and all take finite times. -/
structure AreRegular (launches : List Launch) : Prop where
  distinct : ((recordedBy launches).map (·.report.runId)).Nodup
  started : ∀ r ∈ recordedBy launches, Timestamp.InRange r.report.startedAt
  ended : ∀ r ∈ recordedBy launches, r.report.durationMs.IsFinite

/-! ## The diary -/

/-- A run on record, with what was printed when it was put there. -/
structure Kept extends Recorded where
  output : Output

/-- A history, and all runs that have been put on record since it was last cleared. -/
structure Diary where
  history : History := {}
  kept : List Kept := []

namespace Diary

/-- The diary after one more launch. -/
def step (d : Diary) (l : Launch) : Diary :=
  let (world, output) := l.carriedOut d.history
  { history := world.history,
    kept :=
      if l.clears then []
      else d.kept ++ l.recorded?.toList.map fun r => { toRecorded := r, output } }

/-- The diary of launches that start with a fresh history. -/
def after (launches : List Launch) : Diary := launches.foldl step {}

theorem after_concat (launches : List Launch) (l : Launch) :
    after (launches ++ [l]) = (after launches).step l := List.foldl_concat ..

end Diary

/-! ## What is to be printed -/

namespace Kept

/-- **What was printed of a run** when it was put on record. -/
structure Tells (k : Kept) : Prop where
  /-- The report has an outcome for each command, under the name of the command. -/
  names : k.report.tasks.map (·.name) = k.commands
  stdout : k.output.stdout = reportText k.report
  /-- The launch has failed exactly if a job has. -/
  failed : k.output.failed = true ↔ ∃ outcome ∈ k.report.tasks, outcome.status = .failed
  durationMs : k.report.durationMs = k.report.finishedAt - k.report.startedAt

/-- The line that tells of a run, behind the text of its start. -/
def line (k : Kept) (moment : String) : String :=
  let failures := k.report.tasks.countP (decide <| ·.status = .failed)
  moment ++ "  " ++ k.report.runId ++ "  " ++ toString k.commands.length ++ " job(s)  "
    ++ (if k.output.failed then toString failures ++ " failed" else "ok") ++ "  "
    ++ k.report.durationMs.text ++ "ms"

/-- A line tells of a run. -/
def HasLine (k : Kept) (line : String) : Prop :=
  ∃ moment, Timestamp.text k.report.startedAt = .ok moment ∧ line = k.line moment

end Kept

/-- **What `history` prints of the runs on record**, at most a number of them: some of the runs are
shown and the others left out. -/
structure Prints (kept : List Kept) (limit : Nat) (shown left : List Kept) (lines : List String)
    (output : Output) : Prop where
  perm : (shown ++ left).Perm kept
  /-- The latest come first. -/
  inOrder : shown.Pairwise fun a b => Number.le b.report.startedAt a.report.startedAt = true
  /-- Nothing that is left out started after anything that is shown. -/
  latest : ∀ a ∈ shown, ∀ b ∈ left, Number.le b.report.startedAt a.report.startedAt = true
  told : List.Forall₂ Kept.HasLine shown lines
  length : lines.length = min limit kept.length
  stdout : output.stdout = if kept = [] then asLine "No runs recorded." else asLines lines
  /-- No line is printed but these. -/
  count : output.stdout.toList.count '\n' = if kept = [] then 1 else min limit kept.length
  nothing : output.stdout = asLine "No runs recorded." ↔ kept = []
  stderr : output.stderr = ""
  succeeds : output.failed = false

/-- A launch lists the runs in a diary, at most a number of them. -/
def Diary.Lists (d : Diary) (l : Launch) (limit : Nat) : Prop :=
  ∃ shown left lines, Prints d.kept limit shown left lines (l.carriedOut d.history).2

/-! ## One run on record -/

/-- **What the history relies on** of a run on record. -/
structure Kept.IsSound (k : Kept) : Prop where
  tells : k.Tells
  named : ∃ number, k.report.runId = State.reportId number
  failures : k.report.failures.length = k.report.tasks.countP (decide <| ·.status = .failed)
  started : Timestamp.InRange k.report.startedAt
  finished : k.report.finishedAt.Exact
  legible : ∃ read, List.Forall₂ Outcome.ReadsAs k.report.tasks read

/-- A run that is put on record has been told of as it is. -/
theorem Recorded.isSound {r : Recorded} {l : Launch} {h : History}
    (recorded : l.recorded? = some r) (isOpen : h.isOpen = true)
    (started : Timestamp.InRange r.report.startedAt) (ended : r.report.durationMs.IsFinite) :
    Kept.IsSound { toRecorded := r, output := (l.carriedOut h).2 } := by
  obtain ⟨-, hprinted, hfailed⟩ :=
    l.carriedOut_of_recorded? recorded (record_eq recorded isOpen started ended)
  obtain ⟨o, hcommands, hanswer⟩ := exists_order recorded
  have hsaid := Order.says_of_answer hanswer
  obtain ⟨hfinished, htimes⟩ := Order.times_of_answer (hsaid.startedAt ▸ started) hanswer
  refine ⟨⟨hcommands ▸ hsaid.names, hprinted, ?_, hsaid.durationMs⟩, hsaid.runId, hsaid.failures,
    started, hfinished, History.exists_readsAs (htimes ended)⟩
  -- there is a failure exactly if an outcome is counted among them
  rw [hfailed, Bool.not_eq_true', List.isEmpty_eq_false_iff, ← List.length_pos_iff, hsaid.failures,
    List.countP_pos_iff]
  simp only [decide_eq_true_eq]

/-! ## The list of runs -/

namespace Kept

variable {k : Kept} {shown : List Kept} {lines : List String}

/-- **The row of a run on record** is read, and shown in the line of the run. -/
theorem IsSound.exists_line (sound : k.IsSound) : ∃ entry line,
    (History.Row.ofReport k.report).entry = .ok entry ∧ historyLine entry = .ok line ∧
      k.HasLine line := by
  obtain ⟨stored, hread⟩ := sound.legible
  obtain ⟨moment, hmoment⟩ := Timestamp.exists_text sound.started
  obtain ⟨hstart, hstarted⟩ :=
    History.Cell.read_of_exact (Number.exact_of_inRange sound.started)
  obtain ⟨-, hfinished⟩ := History.Cell.read_of_exact sound.finished
  refine ⟨_, k.line moment, History.Row.entry_of_readsAs hread, ?_, moment, hmoment, rfl⟩
  -- the times of the outcomes may be read differently, but the line only counts the outcomes
  have hfailures : k.report.failures.isEmpty = !k.output.failed := by
    rw [Bool.eq_iff_iff, List.isEmpty_iff, ← List.length_eq_zero_iff, sound.failures,
      List.countP_eq_zero, Bool.not_eq_true', Bool.eq_false_iff, ne_eq, sound.tells.failed]
    simp only [decide_eq_true_eq, not_exists, not_and]
  have hjobs : stored.length = k.commands.length := by
    rw [← hread.length_eq, ← sound.tells.names, List.length_map]
  unfold historyLine startOf History.Entry.ofRow line
  dsimp only
  rw [hstart, hstarted, hfinished, ← sound.tells.durationMs, hjobs, hfailures, ← sound.failures]
  dsimp only
  rw [hmoment]
  cases k.output.failed <;> rfl

theorem IsSound.isLine {line : String} (sound : k.IsSound) (hasLine : k.HasLine line) :
    IsLine line := by
  obtain ⟨moment, hmoment, rfl⟩ := hasLine
  obtain ⟨number, hnumber⟩ := sound.named
  have hgap : IsLine "  " := by decide
  have hstatus : IsLine (if k.output.failed then
      toString (k.report.tasks.countP (decide <| ·.status = .failed)) ++ " failed" else "ok") := by
    split
    · exact (isLine_toString _).append (by decide)
    · decide
  exact Timestamp.isLine_text hmoment |>.append hgap
    |>.append (hnumber ▸ State.isLine_reportId number) |>.append hgap
    |>.append (isLine_toString _) |>.append (t := " job(s)  ") (by decide) |>.append hstatus
    |>.append hgap |>.append (Number.isLine_text _) |>.append (t := "ms") (by decide)

/-- Runs on record are read from their rows, and each of them has its line. -/
theorem exists_lines (sound : ∀ k ∈ shown, k.IsSound) : ∃ entries lines,
    (shown.map fun k => History.Row.ofReport k.report).mapM History.Row.entry = .ok entries ∧
      entries.length = shown.length ∧ historyLines entries = (lines, none) ∧
        List.Forall₂ HasLine shown lines ∧ ∀ line ∈ lines, IsLine line := by
  induction shown with
  | nil => exact ⟨[], [], rfl, rfl, rfl, .nil, List.forall_mem_nil _⟩
  | cons k shown ih =>
    obtain ⟨hfirst, hothers⟩ := List.forall_mem_cons.mp sound
    obtain ⟨entry, line, hentry, hline, hhas⟩ := hfirst.exists_line
    obtain ⟨entries, lines, hentries, hlength, hlines, htold, hsingle⟩ := ih hothers
    refine ⟨entry :: entries, line :: lines, ?_, congrArg Nat.succ hlength, ?_, .cons hhas htold,
      List.forall_mem_cons.mpr ⟨hfirst.isLine hhas, hsingle⟩⟩
    · rw [List.map_cons, List.mapM_cons, hentry, hentries]
      rfl
    · rw [historyLines, hline, hlines]

/-- Lines about runs never say that there are none. -/
theorem asLines_ne (told : List.Forall₂ HasLine shown lines) (some : shown ≠ []) :
    asLines lines ≠ asLine "No runs recorded." := by
  -- the last line ends with a time in milliseconds
  have hends : ∃ front, asLines lines = front ++ "ms\n" := by
    induction told with
    | nil => exact absurd rfl some
    | @cons k line shown lines hline told ih =>
      obtain ⟨moment, -, rfl⟩ := hline
      cases told with
      | nil =>
        obtain ⟨front, hfront⟩ : ∃ front, k.line moment = front ++ "ms" := ⟨_, rfl⟩
        refine ⟨front, ?_⟩
        unfold asLines asLine
        rw [List.map_singleton, String.join_cons, String.join_nil, String.append_empty, hfront,
          String.append_assoc]
        rfl
      | cons =>
        obtain ⟨front, hfront⟩ := ih (List.cons_ne_nil _ _)
        refine ⟨asLine (k.line moment) ++ front, ?_⟩
        rw [String.append_assoc, ← hfront]
        unfold asLines
        rw [List.map_cons, String.join_cons]
  obtain ⟨front, hfront⟩ := hends
  rw [hfront]
  intro heq
  have hsuffix : "ms\n".toList <:+ (asLine "No runs recorded.").toList :=
    ⟨front.toList, by rw [← String.toList_append, heq]⟩
  exact absurd hsuffix (by decide)

end Kept

/-! ## The invariant -/

namespace Diary

variable {d : Diary} {launches : List Launch} {l : Launch}

/-- **The runs on record** are those of the launches behind the last that clears the history. -/
theorem kept_after (launches : List Launch) :
    (after launches).kept.map Kept.toRecorded
      = recordedBy (launches.rtakeWhile fun l => !l.clears) := by
  induction launches using List.reverseRecOn with
  | nil => rfl
  | append_singleton launches l ih =>
    rw [after_concat]
    unfold step
    dsimp only
    cases hclears : l.clears with
    | true =>
      -- the launch cuts off everything before it, itself included
      rw [List.rtakeWhile_concat, hclears]
      rfl
    | false =>
      rw [List.rtakeWhile_concat, hclears, if_neg Bool.false_ne_true, Bool.not_false, if_pos rfl,
        recordedBy_concat, ← ih, List.map_append, List.map_map]
      exact congrArg _ (List.map_id' _)

/-- **The rows of the history are those of the runs on record**, in their order. -/
structure Holds (d : Diary) : Prop where
  isOpen : d.history.isOpen = true
  rows : d.history.rows = d.kept.map fun k => History.Row.ofReport k.report
  sound : ∀ k ∈ d.kept, k.IsSound

theorem holds_start : Holds {} := ⟨rfl, rfl, List.forall_mem_nil _⟩

theorem Holds.clear (hold : d.Holds) (clears : l.clears = true) : (d.step l).Holds := by
  obtain ⟨debug, limit, hread⟩ : ∃ debug limit,
      read l.arguments = .invoke { debug, action := .history limit true } := by
    unfold Launch.clears at clears
    split at clears
    · next debug limit hread => exact ⟨debug, limit, hread⟩
    · cases clears
  obtain ⟨hhistory, -⟩ := Launch.carriedOut_of_clear hold.isOpen hread
  have hkept : (d.step l).kept = [] := if_pos clears
  refine ⟨?_, ?_, ?_⟩
  · exact (congrArg History.isOpen hhistory).trans hold.isOpen
  · rw [hkept]
    exact congrArg History.rows hhistory
  · rw [hkept]
    exact List.forall_mem_nil _

/-- A run that is put on record comes last. -/
theorem kept_step_of_recorded? {r : Recorded} (recorded : l.recorded? = some r) :
    (d.step l).kept
      = d.kept ++ [{ toRecorded := r, output := (l.carriedOut d.history).2 }] := by
  unfold step
  rw [l.clears_of_recorded? recorded, recorded]
  rfl

/-- A run with a new identifier adds its row. -/
theorem Holds.record (hold : d.Holds) {r : Recorded} (recorded : l.recorded? = some r)
    (fresh : r.report.runId ∉ d.kept.map (·.report.runId))
    (started : Timestamp.InRange r.report.startedAt) (ended : r.report.durationMs.IsFinite) :
    (d.step l).Holds := by
  obtain ⟨hhistory, -⟩ := l.carriedOut_of_recorded? recorded
    (Recorded.record_eq recorded hold.isOpen started ended)
  have hkept := kept_step_of_recorded? (d := d) recorded
  -- no row is replaced, since the identifier is in none of them
  have hfresh : ∀ row ∈ d.history.rows, row.runId ≠ some r.report.runId := by
    intro row hmem heq
    rw [hold.rows] at hmem
    obtain ⟨k, hk, rfl⟩ := List.mem_map.mp hmem
    exact fresh (List.mem_map.mpr ⟨k, hk, Option.some.inj heq⟩)
  refine ⟨?_, ?_, ?_⟩
  · exact (congrArg History.isOpen hhistory).trans hold.isOpen
  · rw [hkept, List.map_append, ← hold.rows]
    exact (congrArg History.rows hhistory).trans (History.rows_insert_of_fresh hfresh)
  · rw [hkept]
    refine List.forall_mem_append.mpr ⟨hold.sound, List.forall_mem_singleton.mpr ?_⟩
    exact Recorded.isSound recorded hold.isOpen started ended

/-- **One launch.** It clears the history, puts a run on record, or leaves the history as it is. -/
theorem Holds.step (hold : d.Holds) (l : Launch)
    (regular : ∀ r ∈ l.recorded?, r.report.runId ∉ d.kept.map (·.report.runId) ∧
      Timestamp.InRange r.report.startedAt ∧ r.report.durationMs.IsFinite) :
    (d.step l).Holds := by
  cases hclears : l.clears with
  | true => exact hold.clear hclears
  | false =>
    cases hrecorded : l.recorded? with
    | some r =>
      obtain ⟨hfresh, hstarted, hended⟩ := regular r hrecorded
      exact hold.record hrecorded hfresh hstarted hended
    | none =>
      -- neither is done: the history is as it was, and so is what is kept
      have hhistory : (d.step l).history = d.history := l.history_of_none hclears hrecorded
      have hkept : (d.step l).kept = d.kept := by
        unfold Diary.step
        rw [hclears, hrecorded]
        exact List.append_nil _
      exact ⟨hhistory ▸ hold.isOpen, by rw [hhistory, hkept, hold.rows], hkept ▸ hold.sound⟩

/-- **All launches.** By induction from the end, each of them keeping the invariant. -/
theorem holds_after (regular : AreRegular launches) : (after launches).Holds := by
  induction launches using List.reverseRecOn with
  | nil => exact holds_start
  | append_singleton launches l ih =>
    obtain ⟨hdistinct, hstarted, hended⟩ := regular
    rw [recordedBy_concat] at hdistinct hstarted hended
    rw [List.map_append, List.nodup_append'] at hdistinct
    obtain ⟨hbefore, -, hapart⟩ := hdistinct
    obtain ⟨hstarted, hstarts⟩ := List.forall_mem_append.mp hstarted
    obtain ⟨hended, hends⟩ := List.forall_mem_append.mp hended
    rw [after_concat]
    refine (ih ⟨hbefore, hstarted, hended⟩).step l fun r hr => ?_
    have hlast := Option.mem_toList.mpr hr
    refine ⟨fun hmem => hapart ?_ (List.mem_map_of_mem hlast), hstarts r hlast, hends r hlast⟩
    -- what is on record has been put there by an earlier launch
    obtain ⟨k, hk, hsame⟩ := List.mem_map.mp hmem
    have hrecorded : k.toRecorded ∈ recordedBy launches :=
      ((List.rtakeWhile_suffix _ _).sublist.filterMap _).subset
        (kept_after launches ▸ List.mem_map_of_mem hk)
    exact hsame ▸ List.mem_map_of_mem hrecorded

/-! ## What is shown -/

/-- **The latest runs on record are shown.** -/
theorem Holds.lists (hold : d.Holds) {debug : Bool} {limit : Option Number} {n : Nat}
    (reads : read l.arguments = .invoke { debug, action := .history limit false })
    (asked : History.LimitIs l.world.settings (limit.elim .absent .number) (.ofNat n))
    (positive : 0 < n) (small : n < 2 ^ 53) : d.Lists l n := by
  obtain ⟨ordered, hperm, hordered, hlatest⟩ := History.exists_latestFirst (·.report) hold.rows
    fun k hk => (hold.sound k hk).started.isFinite
  -- only the rows that are shown are read
  have hsound : ∀ k ∈ ordered.take n, k.IsSound :=
    fun k hk => hold.sound k (hperm.mem_iff.mp (List.mem_of_mem_take hk))
  obtain ⟨entries, lines, hentries, hcount, hlines, htold, hsingle⟩ := Kept.exists_lines hsound
  have hlist : d.history.list l.world.settings (limit.elim .absent .number) = .ok entries := by
    have hlimit : (Number.ofNat n).int? = some (n : Int) := by
      rw [Number.ofNat_of_le small.le, Number.int?_finite]
    rw [History.list_eq hold.isOpen asked, History.limitOf_eq hlimit,
      if_pos (small.trans (by decide))]
    change (d.history.latestFirst.take n).mapM History.Row.entry = _
    rw [hlatest, ← List.map_take, hentries]
  have hnone : ordered.take n = [] ↔ d.kept = [] := by
    rw [List.take_eq_nil_iff, or_iff_right (Nat.ne_of_gt positive), ← List.length_eq_zero_iff,
      hperm.length_eq, List.length_eq_zero_iff]
  obtain ⟨hstdout, hstderr, hfailed⟩ := Launch.carriedOut_of_list reads hlist hlines
  have hempty : entries.isEmpty = true ↔ d.kept = [] := by
    rw [← hnone, List.isEmpty_iff, ← List.length_eq_zero_iff, hcount, List.length_eq_zero_iff]
  simp only [hempty] at hstdout
  -- the runs that come first are shown, and the order is that of the whole list
  rw [← List.take_append_drop n ordered] at hperm hordered
  obtain ⟨hshown, -, hleft⟩ := List.pairwise_append.mp hordered
  have hlength : lines.length = min n d.kept.length := by
    rw [← htold.length_eq, List.length_take, ← hperm.length_eq, List.take_append_drop]
  refine ⟨ordered.take n, ordered.drop n, lines, hperm, hshown, hleft, htold, hlength, hstdout, ?_,
    ?_, hstderr, hfailed⟩
  · rw [hstdout, ← hlength]
    split
    · decide
    · exact count_asLines hsingle
  · rw [hstdout]
    refine ⟨fun h => ?_, fun h => if_pos h⟩
    by_contra hsome
    rw [if_neg hsome] at h
    exact Kept.asLines_ne htold (hnone.not.mpr hsome) h

/-- **What `history` shows of earlier launches.** On record are the runs of the launches behind the
last that clears the history, each with what its own launch printed. Asked for the latest of them,
`history` prints a line for each of these, as many as the limit says if there are as many, and
nothing else; told to clear the history, it says how many there were. -/
theorem shown_after (regular : AreRegular launches) :
    let d := Diary.after launches
    d.kept.map Kept.toRecorded = recordedBy (launches.rtakeWhile fun l => !l.clears) ∧
    (∀ k ∈ d.kept, k.Tells) ∧
    (∀ (l : Launch) (debug : Bool) (limit : Number),
      read l.arguments = .invoke { debug, action := .history (some limit) false } →
        ∃ n : Nat, 0 < n ∧ n < 2 ^ 53 ∧ limit = .ofNat n ∧ d.Lists l n) ∧
    (∀ (l : Launch) (debug : Bool) (n : Nat),
      read l.arguments = .invoke { debug, action := .history none false } →
        l.world.settings.listLimit = .number (.ofNat n) → 0 < n → n < 2 ^ 53 → d.Lists l n) ∧
    ∀ (l : Launch) (debug : Bool) (limit : Option Number),
      read l.arguments = .invoke { debug, action := .history limit true } →
        let output := (l.carriedOut d.history).2
        output.stdout = asLine ("Deleted " ++ toString d.kept.length ++ " run(s).") ∧
          output.stderr = "" ∧ output.failed = false := by
  -- the invariant of the whole diary says what any later launch sees
  have hold := holds_after regular
  refine ⟨kept_after launches, fun k hk => (hold.sound k hk).tells, fun l debug limit reads => ?_,
    fun l debug n reads asked positive small => ?_, fun l debug limit reads => ?_⟩
  · obtain ⟨n, hpositive, hsmall, rfl⟩ := limit_of_read reads
    exact ⟨n, hpositive, hsmall, rfl, hold.lists reads (.inl rfl) hpositive hsmall⟩
  · exact hold.lists reads (.inr ⟨rfl, asked⟩) positive small
  · have hcleared := (l.carriedOut_of_clear hold.isOpen reads).2
    rwa [hold.rows, List.length_map] at hcleared

/-- The commands of the first launch fail but for one; that of the second is kept off the record,
and the last launch has an earlier clock. -/
def threeLaunches : List Launch :=
  [{ world := { World.threeChildren with clock := 2000 },
     arguments := runLine false (some "2") false true ["lint", "build", "ghost"] },
   { world := { World.threeChildren with clock := 3000, reports := 1 },
     arguments := runLine false (some "2") false false ["build"] },
   { world := { World.threeChildren with clock := 1000, reports := 2 },
     arguments := runLine false (some "2") false true ["build"] }]

/-- Two of the three runs are put on record, and nothing is cleared. -/
theorem exists_recordedBy_threeLaunches : ∃ first last,
    recordedBy threeLaunches = [first, last] ∧
      (first.report.runId, first.report.startedAt, first.report.durationMs)
        = (State.reportId 1, 2000, 5) ∧
      (last.report.runId, last.report.startedAt, last.report.durationMs)
        = (State.reportId 3, 1000, 3) ∧
      ∀ l ∈ threeLaunches, l.clears = false := by
  have haccepted : ∀ text ∈ some "2", (countOf? text).isSome = true := by
    rintro _ ⟨⟩
    decide +kernel
  have htwo : (some "2").bind countOf? = some 2 := by decide +kernel
  -- the first and the last launch differ only in their commands
  have hput (l : Launch) (commands : List String) (named : String × Number × Number)
      (ne : commands ≠ []) (arguments : l.arguments = runLine false (some "2") false true commands)
      (enabled : l.world.settings.historyEnabled = true)
      (reported : (l.world.report? .info commands (some 2) false l.interrupt).map
        (fun r => (r.runId, r.startedAt, r.durationMs)) = some named) :
      ∃ r, l.recorded? = some r ∧
        (r.report.runId, r.report.startedAt, r.report.durationMs) = named := by
    obtain ⟨report, hreport, hnamed⟩ := Option.map_eq_some_iff.mp reported
    exact ⟨{ commands, report },
      Launch.recorded?_of_report? haccepted ne arguments enabled (htwo.symm ▸ hreport), hnamed⟩
  obtain ⟨first, hfirst, hfirstNamed⟩ := hput threeLaunches[0] ["lint", "build", "ghost"]
    (State.reportId 1, 2000, 5) (by decide) rfl rfl (by decide +kernel)
  obtain ⟨last, hlast, hlastNamed⟩ := hput threeLaunches[2] ["build"] (State.reportId 3, 1000, 3)
    (by decide) rfl rfl (by decide +kernel)
  -- the second is told to keep no record
  have hquiet : threeLaunches[1].arguments = runLine false (some "2") false false ["build"] := rfl
  have hsecond : threeLaunches[1].recorded? = none :=
    Launch.recorded?_runLine haccepted (List.cons_ne_nil _ _) hquiet
  refine ⟨first, last, ?_, hfirstNamed, hlastNamed, fun l hl => ?_⟩
  · change [threeLaunches[0], threeLaunches[1], threeLaunches[2]].filterMap _ = _
    simp only [List.filterMap_cons, hfirst, hsecond, hlast, List.filterMap_nil]
  · change l ∈ [threeLaunches[0], threeLaunches[1], threeLaunches[2]] at hl
    simp only [List.mem_cons, List.not_mem_nil, or_false] at hl
    rcases hl with rfl | rfl | rfl
    · exact Launch.clears_of_recorded? hfirst
    · exact Launch.clears_runLine haccepted (List.cons_ne_nil _ _) hquiet
    · exact Launch.clears_of_recorded? hlast

theorem shown_after_threeLaunches :
    let d := Diary.after threeLaunches
    let latest : Launch := { world := .threeChildren, arguments := ["history", "-l", "1"] }
    let clearing : Launch := { world := .threeChildren, arguments := ["history", "--clear"] }
    AreRegular threeLaunches ∧ d.kept.length = 2 ∧ d.Lists latest 1 ∧
      (clearing.carriedOut d.history).2.stdout = "Deleted 2 run(s).\n" := by
  intro d latest clearing
  obtain ⟨first, last, hrecorded, hfirst, hlast, hunclear⟩ := exists_recordedBy_threeLaunches
  obtain ⟨hfirstId, hfirstStart, hfirstTook⟩ := Prod.mk_inj.mp hfirst |>.imp_right Prod.mk_inj.mp
  obtain ⟨hlastId, hlastStart, hlastTook⟩ := Prod.mk_inj.mp hlast |>.imp_right Prod.mk_inj.mp
  have hregular : AreRegular threeLaunches := by
    constructor <;> rw [hrecorded]
    · rw [List.map_cons, List.map_singleton, hfirstId, hlastId]
      decide
    · rw [List.forall_mem_cons, List.forall_mem_singleton, hfirstStart, hlastStart]
      decide
    · rw [List.forall_mem_cons, List.forall_mem_singleton, hfirstTook, hlastTook]
      exact ⟨⟨_, rfl⟩, _, rfl⟩
  obtain ⟨hkept, -, hlists, -, hclears⟩ := shown_after hregular
  -- no launch clears the history, so what the first and the last recorded is kept
  have hlength : d.kept.length = 2 := by
    have hall : threeLaunches.rtakeWhile (fun l => !l.clears) = threeLaunches :=
      List.rtakeWhile_eq_self_iff.mpr fun l hl => by rw [hunclear l hl]; rfl
    rw [hall, hrecorded] at hkept
    exact (List.length_map _).symm.trans (congrArg List.length hkept)
  obtain ⟨n, -, hsmall, hn, hlatest⟩ := hlists latest false 1 (read_limit (by decide +kernel))
  obtain ⟨hdeleted, -⟩ := hclears clearing false none read_clear
  -- the limit of the theorem is the one on the line
  obtain rfl : n = 1 := by
    have hone : Number.ofNat 1 = .finite ((1 : Nat) : Int) := Number.ofNat_of_le (by decide)
    have hsame := Number.finite.inj (hone.symm.trans (hn.trans (Number.ofNat_of_le hsmall.le)))
    exact_mod_cast hsame.symm
  refine ⟨hregular, hlength, hlatest, ?_⟩
  rw [hdeleted, hlength]
  rfl

/-- Two commands that take `10 ^ 308` milliseconds each, one after the other. -/
def endlessLaunch : Launch where
  world := { clock := 1700000000000, shell := [("wait", { delay := .ofNat (10 ^ 308) })] }
  arguments := runLine false (some "1") false true ["wait", "wait"]

/-- The clock has gone beyond all numbers when the second command ends. -/
def endlessReport : Report where
  runId := State.reportId 1
  maxParallel := 1
  failures := []
  tasks :=
    [{ name := "wait", status := .ok, waitedMs := 0, durationMs := .ofNat (10 ^ 308) },
      { name := "wait", status := .ok, waitedMs := .ofNat (10 ^ 308),
        durationMs := .infinity false }]
  startedAt := 1700000000000
  finishedAt := .infinity false
  durationMs := .infinity false

/-- **A run without end hides the history.** It starts at a date and is put on record; but it takes
an infinite time, which is stored as none, and `history` then fails without printing a line. -/
theorem not_lists_endless :
    let d := Diary.after [endlessLaunch]
    let latest : Launch := { world := endlessLaunch.world, arguments := ["history", "-l", "1"] }
    recordedBy [endlessLaunch]
        = [{ commands := ["wait", "wait"], report := endlessReport }] ∧
      Timestamp.InRange endlessReport.startedAt ∧ d.kept.length = 1 ∧
      read latest.arguments = .invoke { debug := false, action := .history (some 1) false } ∧
      (latest.carriedOut d.history).2.stdout = "" ∧
      (latest.carriedOut d.history).2.failed = true ∧ ¬ d.Lists latest 1 := by
  intro d latest
  have haccepted : ∀ text ∈ some "1", (countOf? text).isSome = true := by
    rintro _ ⟨⟩
    decide +kernel
  have hone : (some "1").bind countOf? = some 1 := by decide +kernel
  have hreport : endlessLaunch.world.report? .info ["wait", "wait"] (some 1) false none
      = some endlessReport := by decide +kernel
  have hrecorded : endlessLaunch.recorded? =
      some { commands := ["wait", "wait"], report := endlessReport } :=
    Launch.recorded?_of_report? haccepted (List.cons_ne_nil _ _) rfl rfl (hone.symm ▸ hreport)
  -- the run is kept as the only row, and that row cannot be read
  have hkeeps : ({} : History).record (.ofReport endlessReport)
      = .ok (({} : History).insert (.ofReport endlessReport)) :=
    History.record_of_ne_nan rfl (by decide) (by decide) (by decide)
  obtain ⟨hhistory, -⟩ := Launch.carriedOut_of_recorded? hrecorded hkeeps
  have hlatest : d.history.latestFirst = [History.Row.ofReport endlessReport] := by
    change ((endlessLaunch.carriedOut {}).1.history).latestFirst = _
    rw [hhistory]
    exact List.mergeSort_singleton _
  obtain ⟨fault, hfault⟩ : ∃ fault, (History.Row.ofReport endlessReport).entry = .error fault :=
    History.Row.exists_fault_of_endless (List.mem_of_getElem? (i := 1) rfl) fun h => nomatch h.2
  have hlist : d.history.list endlessLaunch.world.settings (.number 1) = .error fault := by
    have hopen : d.history.isOpen = true := congrArg History.isOpen hhistory
    have hlimit : Number.int? 1 = some ((1 : Nat) : Int) := by decide +kernel
    rw [History.list_eq hopen (.inl rfl), History.limitOf_eq hlimit]
    change (d.history.latestFirst.take 1).mapM History.Row.entry = _
    rw [hlatest]
    change [History.Row.ofReport endlessReport].mapM History.Row.entry = _
    rw [List.mapM_cons, hfault]
    rfl
  have hreads : read latest.arguments
      = .invoke { debug := false, action := .history (some 1) false } :=
    read_limit (by decide +kernel)
  obtain ⟨hstdout, hfailed⟩ := Launch.carriedOut_of_refused hreads hlist
  have hkept : d.kept.length = 1 :=
    congrArg List.length (kept_step_of_recorded? hrecorded)
  refine ⟨?_, by decide, hkept, hreads, hstdout, hfailed, ?_⟩
  · unfold recordedBy
    rw [List.filterMap_cons, hrecorded]
    rfl
  · rintro ⟨shown, left, lines, hprints⟩
    rw [hprints.succeeds] at hfailed
    cases hfailed

end Diary

end Cli

end BoundedJobs
