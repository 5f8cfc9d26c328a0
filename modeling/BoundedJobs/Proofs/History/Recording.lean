import BoundedJobs.History.Basic
import BoundedJobs.Proofs.History.Storage
import Mathlib.Data.List.Induction

/-!
# What is recorded is read back

A report that is recorded becomes the one row with its identifier, whatever the history holds, and
no other run is touched. The text of the row is read whatever strings and finite times it holds, so
no recorded run makes a history unreadable. All strings of a report, its identifier among them, are
well-formed Unicode: none of them holds one half of a character without the other, which a row could
not keep.

* `History.get_eq`, `History.record_of_isLossless`, `History.eq_insert_of_record` — the two
  operations in terms of rows;
* `History.find?_insert`, `History.find?_insert_of_ne` — one more row, seen by its identifier and by
  the others;
* `History.adds_insert` — what it is for a run to be added, and that recording it does so;
* `History.get_after_record` — a regular report is read back in every part;
* `History.Row.isReadable_ofReport`, `History.Row.exists_fault_of_endless` — a row can be read if
  its times are finite, and only then;
* `History.Grown` — the rows after reports have been recorded;
* `History.readable_of_recorded` — whatever is recorded with finite times can be read back;
* `History.unreadable_limits_and_times` — limits that are no whole numbers are refused, and a time
  that is not finite is not read back.
-/

namespace BoundedJobs

/-- **A finite number.** -/
def Number.IsFinite (n : Number) : Prop := ∃ q, n = finite q

/-- Every number is read as something, and as a number only if it is finite. -/
theorem Number.exists_readsAs (n : Number) : ∃ read, Json.ReadsAs (.number n) read ∧
    ((∃ m, Value.ofJson read = .number m) → n.IsFinite) := by
  cases n with
  | finite q =>
    obtain ⟨m, hm⟩ := Json.exists_numberReadsAs q
    exact ⟨_, hm.number, fun _ => ⟨q, rfl⟩⟩
  | infinity negative =>
    exact ⟨.null, Json.Writes.null, fun ⟨m, hm⟩ => nomatch hm⟩
  | nan =>
    exact ⟨.null, Json.Writes.null, fun ⟨m, hm⟩ => nomatch hm⟩

namespace History

variable {h after : History} {r : Report} {reports : List Report} {row : Row} {id : String}

theorem whileOpen_eq {α : Type} (hopen : h.isOpen = true) (result : Except Fault α) :
    h.whileOpen result = result := if_pos hopen

/-! ## The two operations in terms of rows -/

/-- What is read is the entry in the row of the identifier. -/
theorem get_eq (hopen : h.isOpen = true) (id : String) :
    h.get (.text id) =
      match h.find? id with
      | some row => some <$> row.entry
      | none => .ok none := by
  unfold History.get
  rw [whileOpen_eq hopen, single_of_fills (fills_text id)]
  rfl

/-- A report whose numbers are numbers is always kept. -/
theorem record_of_ne_nan (hopen : h.isOpen = true) (limit : r.maxParallel ≠ .nan)
    (started : r.startedAt ≠ .nan) (finished : r.finishedAt ≠ .nan) :
    h.record (Draft.ofReport r) = .ok (h.insert (Row.ofReport r)) := by
  unfold History.record
  rw [whileOpen_eq hopen, Row.ofDraft_eq, if_neg limit, if_neg started, if_neg finished]
  rfl

theorem record_of_isLossless (hopen : h.isOpen = true) (hr : r.IsLossless) :
    h.record (Draft.ofReport r) = .ok (h.insert (Row.ofReport r)) :=
  record_of_ne_nan hopen hr.maxParallel.ne_nan hr.startedAt.ne_nan hr.finishedAt.ne_nan

/-- Whatever report is kept, it is kept as its row. -/
theorem eq_insert_of_record (hrecord : h.record (Draft.ofReport r) = .ok after) :
    after = h.insert (Row.ofReport r) := by
  unfold History.record whileOpen at hrecord
  split at hrecord
  · rw [Row.ofDraft_eq] at hrecord
    split_ifs at hrecord
    · cases hrecord
    · cases hrecord
    · cases hrecord
    · exact (Except.ok.inj hrecord).symm
  · cases hrecord

/-! ## One more row -/

theorem mem_rows_insert {other : Row} (hother : other ∈ (h.insert row).rows) :
    other ∈ h.rows ∨ other = row := by
  rcases List.mem_append.mp hother with hold | hnew
  · exact .inl (List.mem_filter.mp hold).1
  · exact .inr (List.mem_singleton.mp hnew)

/-- **The new row** is the one that its identifier finds. -/
theorem find?_insert (hid : row.runId = some id) : (h.insert row).find? id = some row := by
  have hgone : (h.rows.filter (!row.replaces ·)).find? (·.runId == some id) = none := by
    rw [List.find?_eq_none]
    intro old hold hsame
    have hkept : (!row.replaces old) = true := (List.mem_filter.mp hold).2
    unfold Row.replaces at hkept
    rw [hid, hsame] at hkept
    cases hkept
  change (h.rows.filter (!row.replaces ·) ++ [row]).find? (·.runId == some id) = some row
  rw [List.find?_append, hgone, Option.none_or, List.find?_cons_of_pos]
  rw [hid, beq_self_eq_true]

/-- **The other rows** are found as before. -/
theorem find?_insert_of_ne (hid : row.runId ≠ some id) :
    (h.insert row).find? id = h.find? id := by
  have hkept : (h.rows.filter (!row.replaces ·)).find? (·.runId == some id) = h.find? id := by
    rw [List.find?_filter]
    refine congrArg (h.rows.find? ·) (funext fun old => ?_)
    by_cases hold : old.runId = some id
    · -- a row with the identifier is not replaced, since the new one has another
      have hstays : row.replaces old = false := by
        unfold Row.replaces
        rw [hold, Bool.and_eq_false_imp]
        exact fun _ => beq_eq_false_iff_ne.mpr fun heq => hid heq.symm
      rw [hstays]
      simp [hold]
    · simp [hold]
  change (h.rows.filter (!row.replaces ·) ++ [row]).find? (·.runId == some id) = h.find? id
  rw [List.find?_append, hkept, List.find?_cons_of_neg, List.find?_nil, Option.or_none]
  rwa [beq_iff_eq]

/-- **One run is added to a history**: it is read back in every part, and the other runs are read as
before. -/
structure Adds (h : History) (r : Report) (after : History) : Prop where
  rows : (∀ row ∈ h.rows, row.runId ≠ some r.runId) → after.rows = h.rows ++ [Row.ofReport r]
  found : after.get (.text r.runId) = .ok (some (Entry.ofReport r))
  others : ∀ id, id ≠ r.runId → after.get (.text id) = h.get (.text id)

/-- A report with a new identifier replaces no row. -/
theorem rows_insert_of_fresh (fresh : ∀ row ∈ h.rows, row.runId ≠ some r.runId) :
    (h.insert (Row.ofReport r)).rows = h.rows ++ [Row.ofReport r] := by
  have hkept : h.rows.filter (!(Row.ofReport r).replaces ·) = h.rows := by
    refine List.filter_eq_self.mpr fun old hold => ?_
    change (!(true && old.runId == some r.runId)) = true
    rw [beq_eq_false_iff_ne.mpr (fresh old hold)]
    rfl
  exact congrArg (· ++ [Row.ofReport r]) hkept

/-- The row of a report that loses nothing adds the run. -/
theorem adds_insert (hopen : h.isOpen = true) (hr : r.IsLossless) :
    h.Adds r (h.insert (Row.ofReport r)) where
  rows := rows_insert_of_fresh
  found := by
    rw [get_eq (h := h.insert _) hopen, find?_insert rfl]
    change some <$> (Row.ofReport r).entry = _
    rw [Row.entry_of_isLossless hr]
    rfl
  others := by
    intro id hid
    rw [get_eq (h := h.insert _) hopen, get_eq hopen,
      find?_insert_of_ne fun heq => hid (Option.some.inj heq).symm]

/-- **Reading undoes recording.** Right after a regular report has been recorded, in any history, it
is read back in every part: as plain data it is the report itself, with an error exactly where the
report has one. Its strings are any that are well-formed Unicode. -/
theorem get_after_record (hopen : h.isOpen = true) (hr : r.IsRegular) :
    ∃ after, h.record (Draft.ofReport r) = .ok after ∧
      after.get (.text r.runId) = .ok (some (Entry.ofReport r)) ∧
        (Entry.ofReport r).value = r.value :=
  ⟨_, record_of_isLossless hopen hr.isLossless, (adds_insert hopen hr.isLossless).found, rfl⟩

/-- A report whose strings need escapes, with an empty message. -/
def escapedRun : Report where
  runId := "\"\\\n"
  maxParallel := .finite 2
  failures := ["\x00 \x7f \u2028", ""]
  tasks :=
    [⟨"\t", .ok, none, .finite 0, .finite 7⟩,
      ⟨"", .failed, some "\x00 \x7f \u2028", .finite 7, .finite 2⟩,
      ⟨"𝄞 ∀", .failed, some "", .finite 0, .finite 1⟩]
  startedAt := .finite ((-1 : Int) : Rat)
  finishedAt := .finite ((8 : Int) : Rat)
  durationMs := .finite ((9 : Int) : Rat)

theorem get_after_record_escaped :
    ({} : History).isOpen = true ∧ escapedRun.IsRegular ∧
      ∃ after, ({} : History).record (Draft.ofReport escapedRun) = .ok after ∧
        after.get (.text "\"\\\n") = .ok (some (Entry.ofReport escapedRun)) ∧
          (Entry.ofReport escapedRun).value = escapedRun.value := by
  have hduration : escapedRun.durationMs = escapedRun.finishedAt - escapedRun.startedAt := by
    have hend : Number.Whole 8 := Number.Whole.of_le (by decide)
    have hstart : Number.Whole (-1) := Number.Whole.of_le (by decide)
    -- the clock was set back before the epoch, so the start is negative
    calc escapedRun.durationMs
        = Number.ofInt (8 - -1) := (Number.Whole.of_le (by decide)).symm
      _ = Number.ofInt 8 - Number.ofInt (-1) := (hend.sub hstart).symm
      _ = escapedRun.finishedAt - escapedRun.startedAt := congrArg₂ (· - ·) hend hstart
  have hsmall {i : Int} (hi : i.natAbs < Number.exactBound) : (Number.finite i).IsSafe :=
    ⟨i, hi, rfl⟩
  have hregular : escapedRun.IsRegular := by
    refine ⟨hsmall (i := 2) (by decide), hsmall (by decide), hsmall (by decide), ?_, hduration⟩
    intro o ho
    simp only [escapedRun, List.mem_cons, List.not_mem_nil, or_false] at ho
    rcases ho with rfl | rfl | rfl
    · exact ⟨hsmall (i := 0) (by decide), hsmall (i := 7) (by decide)⟩
    · exact ⟨hsmall (i := 7) (by decide), hsmall (i := 2) (by decide)⟩
    · exact ⟨hsmall (i := 0) (by decide), hsmall (i := 1) (by decide)⟩
  exact ⟨rfl, hregular, get_after_record rfl hregular⟩

/-! ## Limits -/

/-- **The limit that a number sets.** It has to be a whole number of 64 bits, and a negative one
sets none. -/
theorem limitOf_number (n : Number) :
    limitOf (.number n) =
      match n.int? with
      | some i =>
        if i.natAbs < 2 ^ 63 then .ok (if i < 0 then none else some i.toNat) else .error badLimit
      | none => .error badLimit := by
  unfold limitOf
  rw [single_of_fills (fills_ofNumber n)]
  by_cases hn : n = .nan
  · subst hn
    rfl
  · -- the parameter is a real, which becomes an integer where one is wanted, if it can
    have hstored : (Cell.real n).forNumbers = .ofNumber n := rfl
    rw [if_neg hn]
    dsimp only [bind, Except.bind]
    rw [hstored]
    unfold Cell.ofNumber
    cases n.int? with
    | none => rfl
    | some i =>
      dsimp only
      by_cases hi : i.natAbs < 2 ^ 63
      · have hsmall : i.natAbs < Nat.pow 2 63 := hi
        rw [if_pos hsmall, if_pos hi]
        rfl
      · have hlarge : ¬ i.natAbs < Nat.pow 2 63 := hi
        rw [if_neg hlarge, if_neg hi]
        rfl

/-- The number that a limit sets, which the settings say when the limit is absent. -/
def LimitIs (settings : Settings) (limit : Value) (n : Number) : Prop :=
  limit = .number n ∨ limit = .absent ∧ settings.listLimit = .number n

theorem list_eq (hopen : h.isOpen = true) {settings : Settings} {limit : Value} {n : Number}
    (hlimit : LimitIs settings limit n) :
    h.list settings limit = (limitOf (.number n)).bind fun count =>
      (count.elim h.latestFirst (h.latestFirst.take ·)).mapM Row.entry := by
  unfold History.list
  rw [whileOpen_eq hopen]
  rcases hlimit with rfl | ⟨rfl, hsettings⟩
  · change Except.bind (limitOf (.number n)) _ = _
    refine congrArg _ (funext fun count => ?_)
    cases count <;> rfl
  · change Except.bind (limitOf settings.listLimit) _ = _
    rw [hsettings]
    refine congrArg _ (funext fun count => ?_)
    cases count <;> rfl

/-! ## Whatever is recorded -/

/-- A row that can be read. -/
def Row.IsReadable (row : Row) : Prop := ∃ entry, row.entry = .ok entry

theorem exists_readsAs {tasks : List Outcome}
    (htimes : ∀ o ∈ tasks, o.waitedMs.IsFinite ∧ o.durationMs.IsFinite) :
    ∃ read, List.Forall₂ Outcome.ReadsAs tasks read := by
  induction tasks with
  | nil => exact ⟨[], .nil⟩
  | cons o tasks ih =>
    obtain ⟨⟨⟨waited, hwaited⟩, duration, hduration⟩, hothers⟩ := List.forall_mem_cons.mp htimes
    obtain ⟨read, hread⟩ := ih hothers
    obtain ⟨waitedRead, hw⟩ := Json.exists_numberReadsAs waited
    obtain ⟨durationRead, hd⟩ := Json.exists_numberReadsAs duration
    exact ⟨{ o with waitedMs := waitedRead, durationMs := durationRead } :: read,
      .cons ⟨rfl, rfl, rfl, hwaited ▸ hw, hduration ▸ hd⟩ hread⟩

/-- **Finite times are read as numbers**, so the row of their report is readable. -/
theorem Row.isReadable_ofReport
    (htimes : ∀ o ∈ r.tasks, o.waitedMs.IsFinite ∧ o.durationMs.IsFinite) :
    (Row.ofReport r).IsReadable := by
  obtain ⟨read, hread⟩ := exists_readsAs htimes
  exact ⟨_, Row.entry_of_readsAs hread⟩

/-- What passes as an outcome shows its two times. -/
theorem exists_times_of_shape {value : Value} {task : Outcome}
    (h : Outcome.shape value = .ok task) :
    (∃ n, value.field "waitedMs" = .number n) ∧ ∃ n, value.field "durationMs" = .number n := by
  have shown := Outcome.shape_eq_ok_iff.mp h
  exact ⟨⟨task.waitedMs, shown.waitedMs.1⟩, task.durationMs, shown.durationMs.1⟩

/-- What passes as outcomes shows the two times of each of them. -/
theorem exists_times_of_listShape {items : List Value} {tasks : List Outcome}
    (hshape : Outcome.listShape (.array items) = .ok tasks) :
    ∀ value ∈ items, (∃ n, value.field "waitedMs" = .number n) ∧
      ∃ n, value.field "durationMs" = .number n := by
  have htimes := (Shape.arrayOf_eq_ok_iff.mp hshape).imp fun value task htask =>
    And.intro (exists_times_of_shape htask) htask
  exact ((List.forall₂_and_left items tasks).mp htimes).1

/-- Every outcome is read as something, whose times are numbers only if they are finite. -/
theorem exists_readsAs_json (o : Outcome) : ∃ tree, o.json.ReadsAs tree ∧
    (((∃ n, (Value.ofJson tree).field "waitedMs" = .number n) ∧
      ∃ n, (Value.ofJson tree).field "durationMs" = .number n) →
        o.waitedMs.IsFinite ∧ o.durationMs.IsFinite) := by
  obtain ⟨waited, hwaited, hwaits⟩ := o.waitedMs.exists_readsAs
  obtain ⟨duration, hduration, hlasts⟩ := o.durationMs.exists_readsAs
  refine ⟨o.jsonWith waited duration, o.readsAs_jsonWith hwaited hduration, ?_⟩
  rintro ⟨⟨n, hn⟩, m, hm⟩
  unfold Outcome.jsonWith at hn hm
  -- an absent error leaves no field at all, so what stands where depends on it
  refine ⟨hwaits ⟨n, ?_⟩, hlasts ⟨m, ?_⟩⟩
  · cases herror : o.error <;> rw [herror] at hn <;> exact hn
  · cases herror : o.error <;> rw [herror] at hm <;> exact hm

/-- **A row is readable only if its times are finite**: any other number is written as `null`, which
is none. -/
theorem Row.exists_fault_of_endless {o : Outcome} (hmem : o ∈ r.tasks)
    (endless : ¬ (o.waitedMs.IsFinite ∧ o.durationMs.IsFinite)) :
    ∃ fault, (Row.ofReport r).entry = .error fault := by
  choose tree htree hfinite using exists_readsAs_json
  have hparsed : parsed (tasksText r.tasks) =
      .ok (Value.ofJson (.array (r.tasks.map tree))) := by
    refine parsed_compact (.array ?_)
    rw [List.forall₂_map_left_iff, List.forall₂_map_right_iff, List.forall₂_same]
    exact fun o _ => htree o
  rw [Value.ofJson_array fun _ _ => rfl] at hparsed
  rw [Row.entry_eq hparsed]
  cases hshape : Outcome.listShape _ with
  | error issues => exact ⟨_, rfl⟩
  | ok tasks =>
    exact absurd (hfinite o (exists_times_of_listShape hshape _ (List.mem_map_of_mem hmem))) endless

/-- The history after reports have been recorded, one after the other. -/
def recordAll (h : History) (reports : List Report) : Except Fault History :=
  reports.foldlM (fun h r => h.record (Draft.ofReport r)) h

/-- **What reports add to a history**: rows of theirs, and for each of them the row of the last one
with its identifier. -/
structure Grown (h : History) (reports : List Report) (after : History) : Prop where
  isOpen : after.isOpen = h.isOpen
  rows : ∀ row ∈ after.rows, row ∈ h.rows ∨ ∃ r ∈ reports, row = Row.ofReport r
  found : ∀ r ∈ reports, ∃ last ∈ reports, last.runId = r.runId ∧
    after.find? r.runId = some (Row.ofReport last)

theorem Grown.insert (hgrown : h.Grown reports after) (r : Report) :
    h.Grown (reports ++ [r]) (after.insert (Row.ofReport r)) where
  isOpen := hgrown.isOpen
  rows row hrow := by
    rcases mem_rows_insert hrow with hold | rfl
    · refine (hgrown.rows row hold).imp_right fun ⟨other, hother, heq⟩ => ?_
      exact ⟨other, List.mem_append_left _ hother, heq⟩
    · exact .inr ⟨r, List.mem_append_right _ (List.mem_singleton_self r), rfl⟩
  found other hother := by
    by_cases hid : other.runId = r.runId
    · refine ⟨r, List.mem_append_right _ (List.mem_singleton_self r), hid.symm, ?_⟩
      exact find?_insert (congrArg some hid.symm)
    · -- another identifier, so the report is an earlier one and its row stays
      have hearlier : other ∈ reports := (List.mem_append.mp hother).resolve_right fun hmem =>
        hid (congrArg Report.runId (List.mem_singleton.mp hmem))
      obtain ⟨last, hlast, hsame, hfound⟩ := hgrown.found other hearlier
      refine ⟨last, List.mem_append_left _ hlast, hsame, ?_⟩
      rw [find?_insert_of_ne fun heq => hid (Option.some.inj heq).symm, hfound]

/-- **Every run of records.** By induction from the end, each adding one row. -/
theorem grown_of_recordAll (hrecorded : h.recordAll reports = .ok after) :
    h.Grown reports after := by
  induction reports using List.reverseRecOn generalizing after with
  | nil =>
    cases hrecorded
    exact ⟨rfl, fun _ hrow => .inl hrow, fun _ hmem => absurd hmem (List.not_mem_nil)⟩
  | append_singleton reports r ih =>
    unfold recordAll at hrecorded
    rw [List.foldlM_append] at hrecorded
    -- the last record was reached, so those before it have succeeded
    cases hbetween : reports.foldlM (fun h r => h.record (Draft.ofReport r)) h with
    | error fault =>
      rw [hbetween] at hrecorded
      cases hrecorded
    | ok between =>
      rw [hbetween] at hrecorded
      have hlast : between.record (Draft.ofReport r) = .ok after := by
        change (between.record (Draft.ofReport r)).bind _ = _ at hrecorded
        cases hrecord : between.record (Draft.ofReport r) with
        | error fault =>
          rw [hrecord] at hrecorded
          cases hrecorded
        | ok last =>
          rw [hrecord] at hrecorded
          exact hrecorded
      rw [eq_insert_of_record hlast]
      exact (ih hbetween).insert r

theorem exists_mapM_entry {rows : List Row} (hrows : ∀ row ∈ rows, row.IsReadable) :
    ∃ entries, rows.mapM Row.entry = .ok entries ∧ entries.length = rows.length := by
  induction rows with
  | nil => exact ⟨[], rfl, rfl⟩
  | cons row rows ih =>
    obtain ⟨⟨entry, hentry⟩, hothers⟩ := List.forall_mem_cons.mp hrows
    obtain ⟨entries, hentries, hlength⟩ := ih hothers
    refine ⟨entry :: entries, ?_, congrArg Nat.succ hlength⟩
    rw [List.mapM_cons, hentry, hentries]
    rfl

/-- **Readable rows are listed**, as many as the limit says. -/
theorem list_of_readable (hopen : h.isOpen = true) (hrows : ∀ row ∈ h.rows, row.IsReadable)
    {settings : Settings} {limit : Value} {n : Number} {i : Int}
    (hlimit : LimitIs settings limit n) (hint : n.int? = some i) (hi : i.natAbs < 2 ^ 63) :
    ∃ entries, h.list settings limit = .ok entries ∧
      entries.length = if i < 0 then h.rows.length else min i.toNat h.rows.length := by
  -- the order of the list does not matter: it has the rows of the history
  have hmem : ∀ row ∈ h.latestFirst, row.IsReadable :=
    fun row hrow => hrows row ((List.mergeSort_perm _ _).mem_iff.mp hrow)
  have hlength : h.latestFirst.length = h.rows.length := (List.mergeSort_perm _ _).length_eq
  rw [list_eq hopen hlimit, limitOf_number, hint]
  dsimp only
  rw [if_pos hi]
  by_cases hneg : i < 0
  · obtain ⟨entries, hentries, hcount⟩ := exists_mapM_entry hmem
    rw [if_pos hneg, if_pos hneg]
    exact ⟨entries, hentries, hcount.trans hlength⟩
  · have htaken : ∀ row ∈ h.latestFirst.take i.toNat, row.IsReadable :=
      fun row hrow => hmem row (List.mem_of_mem_take hrow)
    obtain ⟨entries, hentries, hcount⟩ := exists_mapM_entry htaken
    rw [if_neg hneg, if_neg hneg]
    refine ⟨entries, hentries, hcount.trans ?_⟩
    rw [List.length_take, hlength]

/-- **Whatever is recorded can be read back.** After any reports with finite times, and with any
strings that are well-formed Unicode, have been recorded in any open history, each of them is found
under its identifier; and if the history held no unreadable row before, the latest runs are listed
under every limit that is a whole number of 64 bits, while any other number is refused as one. -/
theorem readable_of_recorded (hopen : h.isOpen = true) (hrecorded : h.recordAll reports = .ok after)
    (htimes : ∀ r ∈ reports, ∀ o ∈ r.tasks, o.waitedMs.IsFinite ∧ o.durationMs.IsFinite) :
    (∀ r ∈ reports, ∃ entry, after.get (.text r.runId) = .ok (some entry) ∧
      entry.runId = some r.runId) ∧
    ((∀ row ∈ h.rows, row.IsReadable) →
      ∀ settings limit n i, LimitIs settings limit n → n.int? = some i → i.natAbs < 2 ^ 63 →
        ∃ entries, after.list settings limit = .ok entries ∧
          entries.length = if i < 0 then after.rows.length else min i.toNat after.rows.length) ∧
    ∀ settings limit n, LimitIs settings limit n →
      (∀ i, n.int? = some i → 2 ^ 63 ≤ i.natAbs) → after.list settings limit = .error badLimit := by
  have hgrown := grown_of_recordAll hrecorded
  have hafter : after.isOpen = true := hgrown.isOpen.trans hopen
  refine ⟨fun r hr => ?_, fun hrows settings limit n i hlimit hint hi => ?_,
    fun settings limit n hlimit hlarge => ?_⟩
  · -- a later report with the same identifier may have replaced the row
    obtain ⟨last, hlast, hid, hfound⟩ := hgrown.found r hr
    obtain ⟨read, hread⟩ := exists_readsAs (htimes last hlast)
    refine ⟨Entry.ofRow last read, ?_, congrArg some hid⟩
    rw [get_eq hafter, hfound]
    change some <$> (Row.ofReport last).entry = _
    rw [Row.entry_of_readsAs hread]
    rfl
  · refine list_of_readable hafter (fun row hrow => ?_) hlimit hint hi
    rcases hgrown.rows row hrow with hold | ⟨r, hr, rfl⟩
    · exact hrows row hold
    · exact Row.isReadable_ofReport (htimes r hr)
  · rw [list_eq hafter hlimit, limitOf_number]
    cases hint : n.int? with
    | none => rfl
    | some i =>
      dsimp only
      rw [if_neg (Nat.not_lt.mpr (hlarge i hint))]
      rfl

/-- A run of one task with the given times, at most two at a time. -/
def timedRun (waitedMs durationMs : Number) : Report where
  runId := "timed"
  maxParallel := .finite 2
  failures := ["out of memory"]
  tasks := [⟨"link", .failed, some "out of memory", waitedMs, durationMs⟩]
  startedAt := .finite (1 / 2)
  finishedAt := .finite (10 ^ 30)
  durationMs := .finite (10 ^ 30)

theorem recordAll_timedRun (waitedMs durationMs : Number) :
    ({} : History).recordAll [timedRun waitedMs durationMs] =
      .ok (({} : History).insert (Row.ofReport (timedRun waitedMs durationMs))) := by
  have hrecord : ({} : History).record (Draft.ofReport (timedRun waitedMs durationMs)) =
      .ok (({} : History).insert (Row.ofReport (timedRun waitedMs durationMs))) := by
    unfold History.record
    rw [whileOpen_eq rfl, Row.ofDraft_eq]
    rfl
  unfold recordAll
  rw [List.foldlM_cons, hrecord]
  rfl

theorem readable_of_recorded_fractions :
    let run := timedRun (.finite (1 / 3)) (.finite (10 ^ 30))
    let after := ({} : History).insert (Row.ofReport run)
    ({} : History).isOpen = true ∧ ({} : History).recordAll [run] = .ok after ∧
      (∀ r ∈ [run], ∀ o ∈ r.tasks, o.waitedMs.IsFinite ∧ o.durationMs.IsFinite) ∧
        (∃ entry, after.get (.text "timed") = .ok (some entry) ∧ entry.runId = some "timed") ∧
          ∃ entries, after.list default (.number (.finite (7 : Int))) = .ok entries ∧
            entries.length = 1 := by
  intro run after
  have hrecorded : ({} : History).recordAll [run] = .ok after := recordAll_timedRun _ _
  -- neither time is whole, and the second is far too large to be counted exactly
  have htimes : ∀ r ∈ [run], ∀ o ∈ r.tasks, o.waitedMs.IsFinite ∧ o.durationMs.IsFinite := by
    intro r hr o ho
    rw [List.mem_singleton.mp hr] at ho
    rw [List.mem_singleton.mp ho]
    exact ⟨⟨_, rfl⟩, ⟨_, rfl⟩⟩
  obtain ⟨hget, hlist, -⟩ := readable_of_recorded rfl hrecorded htimes
  refine ⟨rfl, hrecorded, htimes, hget run (List.mem_singleton_self run), ?_⟩
  exact hlist (fun row hrow => absurd hrow List.not_mem_nil) default _ _ 7 (.inl rfl)
    (Number.int?_finite 7) (by decide)

/-- A run whose task waited for ever. -/
def endlessRun : Report := timedRun (.infinity false) (.finite (1 : Int))

theorem Row.entry_endless : ∃ fault, (Row.ofReport endlessRun).entry = .error fault :=
  Row.exists_fault_of_endless (List.mem_singleton_self _) fun h => nomatch h.1

/-- **Not every limit lists, and not every time is read back.** A limit of one and a half is
refused, whatever is kept. A run whose task waited for ever is recorded, and its outcomes have the
required shape; but nothing can be read any more, neither the run nor the list. -/
theorem unreadable_limits_and_times :
    (∃ after, ({} : History).recordAll [timedRun (.finite 0) (.finite 1)] = .ok after ∧
      after.list default (.number (.finite (3 / 2))) = .error badLimit) ∧
    ∃ after fault, ({} : History).recordAll [endlessRun] = .ok after ∧
      Outcome.listShape (.array (endlessRun.tasks.map Outcome.value)) =
        .ok endlessRun.tasks ∧
      after.get (.text "timed") = .error fault ∧
        after.list default (.number (.finite (1 : Int))) = .error fault := by
  refine ⟨⟨_, recordAll_timedRun _ _, ?_⟩, ?_⟩
  · -- the limit is checked before any row is looked at
    rw [list_eq rfl (.inl rfl), limitOf_number]
    have hint : (Number.finite (3 / 2)).int? = none := by decide +kernel
    rw [hint]
    rfl
  · -- JSON has no infinity, so the wait is stored as `null` and refused when it is read
    obtain ⟨fault, hfault⟩ := Row.entry_endless
    have hrows : (({} : History).insert (Row.ofReport endlessRun)).latestFirst =
        [Row.ofReport endlessRun] := List.mergeSort_singleton _
    refine ⟨_, fault, recordAll_timedRun _ _, listShape_values ?_, ?_, ?_⟩
    · intro o ho
      rw [List.mem_singleton.mp ho]
      exact ⟨Number.noConfusion, Number.noConfusion⟩
    · rw [get_eq rfl, find?_insert rfl]
      change some <$> (Row.ofReport endlessRun).entry = _
      rw [hfault]
      rfl
    · rw [list_eq rfl (.inl rfl), limitOf_number, Number.int?_finite]
      change (((({} : History).insert (Row.ofReport endlessRun)).latestFirst).take 1).mapM
        Row.entry = _
      rw [hrows]
      change [Row.ofReport endlessRun].mapM Row.entry = _
      rw [List.mapM_cons, hfault]
      rfl

end History

end BoundedJobs
