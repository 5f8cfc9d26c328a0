import BoundedJobs.Proofs.History.Parameter
import BoundedJobs.Proofs.History.Validation
import BoundedJobs.Proofs.Json.Numerals
import BoundedJobs.Proofs.Json.RoundTrip

/-!
# A row holds its report

A report whose numbers are safe integers is stored without loss: its row is read as the entry that
agrees with the report in every part.

* `Number.IsSafe` — a safe integer;
* `Report.IsRegular` — the reports in question;
* `Report.IsLossless` — the same with any times whose texts are read as these times;
* `Outcome.json`, `Outcome.dump_value`, `Outcome.ReadsAs`, `Outcome.ofJson_json` — an outcome on
  its way into a text and back;
* `Row.ofReport`, `Row.ofDraft_eq` — the row of a report;
* `Row.entry_of_readsAs`, `Row.entry_ofReport` — what is read from it.
-/

namespace BoundedJobs

/-! ## Regular reports -/

/-- **A safe integer**: a whole number of no more than 53 binary digits. -/
def Number.IsSafe (n : Number) : Prop := ∃ i : Int, i.natAbs < exactBound ∧ n = finite i

/-- **A report whose numbers are safe integers** and whose duration is the time between its start
and its end. -/
structure Report.IsRegular (r : Report) : Prop where
  maxParallel : r.maxParallel.IsSafe
  startedAt : r.startedAt.IsSafe
  finishedAt : r.finishedAt.IsSafe
  tasks : ∀ o ∈ r.tasks, o.waitedMs.IsSafe ∧ o.durationMs.IsSafe
  durationMs : r.durationMs = r.finishedAt - r.startedAt

/-- **A report that loses nothing** when it is stored: its times may be any numbers whose texts are
read as these numbers. -/
structure Report.IsLossless (r : Report) : Prop where
  maxParallel : r.maxParallel.IsSafe
  startedAt : r.startedAt.IsSafe
  finishedAt : r.finishedAt.IsSafe
  tasks : ∀ o ∈ r.tasks, Json.Legible o.waitedMs ∧ Json.Legible o.durationMs
  durationMs : r.durationMs = r.finishedAt - r.startedAt

namespace Number.IsSafe

variable {n : Number}

theorem ne_nan (h : n.IsSafe) : n ≠ .nan := by
  obtain ⟨i, -, rfl⟩ := h
  exact fun h => by cases h

theorem legible (h : n.IsSafe) : Json.Legible n := by
  obtain ⟨i, hi, rfl⟩ := h
  exact Json.legible_of_whole (hi.trans (by decide)) (Whole.of_le hi.le)

theorem exact (h : n.IsSafe) : n.Exact := by
  obtain ⟨i, hi, rfl⟩ := h
  intro j hj
  rw [int?_finite] at hj
  exact Option.some.inj hj ▸ Whole.of_le hi.le

end Number.IsSafe

theorem Report.IsRegular.isLossless {r : Report} (h : r.IsRegular) : r.IsLossless where
  maxParallel := h.maxParallel
  startedAt := h.startedAt
  finishedAt := h.finishedAt
  tasks o ho := ⟨(h.tasks o ho).1.legible, (h.tasks o ho).2.legible⟩
  durationMs := h.durationMs

/-! ## Lists of values -/

namespace Value

variable {α : Type} {f : α → Value} {tree : α → Json} {items : List α}

theorem dumpItems_map (h : ∀ a ∈ items, (f a).dump = .ok (some (tree a))) :
    dumpItems (items.map f) = .ok (items.map tree) := by
  induction items with
  | nil => rfl
  | cons a items ih =>
    obtain ⟨ha, hitems⟩ := List.forall_mem_cons.mp h
    rw [List.map_cons, dumpItems, ha, ih hitems]
    rfl

theorem dump_array (h : ∀ a ∈ items, (f a).dump = .ok (some (tree a))) :
    (array (items.map f)).dump = .ok (some (.array (items.map tree))) := by
  rw [dump, dumpItems_map h]
  rfl

theorem ofJson_array (h : ∀ a ∈ items, ofJson (tree a) = f a) :
    ofJson (.array (items.map tree)) = array (items.map f) := by
  have hitems : ofItems (items.map tree) = items.map f := by
    induction items with
    | nil => rfl
    | cons a items ih =>
      obtain ⟨ha, hitems⟩ := List.forall_mem_cons.mp h
      rw [List.map_cons, ofItems, ha, ih hitems, List.map_cons]
  rw [ofJson, hitems]

/-- Names that are no indices keep their order. -/
theorem ordered_of_named {fields : List (String × α)}
    (h : ∀ field ∈ fields, index? field.1 = none) : ordered fields = fields := by
  have hindexed :
      (fields.filterMap fun field => (index? field.1).map fun i => (i, field)) = [] := by
    rw [List.filterMap_eq_nil_iff]
    intro field hfield
    rw [h field hfield]
    rfl
  have hnamed : (fields.filter fun field => (index? field.1).isNone) = fields := by
    rw [List.filter_eq_self]
    intro field hfield
    rw [h field hfield]
    rfl
  unfold ordered
  dsimp only
  rw [hindexed, hnamed, List.mergeSort_nil]
  rfl

end Value

/-! ## Outcomes -/

namespace Outcome

/-- The JSON of an outcome. -/
def json (o : Outcome) : Json :=
  .object
    ([("name", .string o.name), ("status", .string o.status.name),
      ("waitedMs", .number o.waitedMs), ("durationMs", .number o.durationMs)]
      ++ o.error.toList.map fun error => ("error", .string error))

theorem index?_fieldName :
    ∀ name ∈ ["name", "status", "waitedMs", "durationMs", "error"], Value.index? name = none := by
  decide

theorem dump_value (o : Outcome) : o.value.dump = .ok (some o.json) := by
  obtain ⟨name, status, error, waited, duration⟩ := o
  unfold value json
  rw [Value.dump]
  -- an absent error is left out, and the other names keep their order
  cases error with
  | none =>
    change Except.ok (some (Json.object (Value.ordered _))) = _
    rw [Value.ordered_of_named]
    · rfl
    · intro field hfield
      have hname := List.mem_map_of_mem (f := (·.1)) hfield
      exact index?_fieldName _ (List.mem_append_left ["error"] hname)
  | some error =>
    change Except.ok (some (Json.object (Value.ordered _))) = _
    rw [Value.ordered_of_named]
    · rfl
    · intro field hfield
      exact index?_fieldName _ (List.mem_map_of_mem (f := (·.1)) hfield)

theorem ofJson_json (o : Outcome) : Value.ofJson o.json = o.value := by
  obtain ⟨name, status, error, waited, duration⟩ := o
  cases error <;> rfl

/-- **An outcome whose text is read as an outcome**, which may differ from it in its two times. -/
structure ReadsAs (o read : Outcome) : Prop where
  name : read.name = o.name
  status : read.status = o.status
  error : read.error = o.error
  waitedMs : Json.NumberReadsAs o.waitedMs read.waitedMs
  durationMs : Json.NumberReadsAs o.durationMs read.durationMs

/-- The JSON of an outcome with something else in place of its times. -/
def jsonWith (o : Outcome) (waited duration : Json) : Json :=
  .object
    ([("name", .string o.name), ("status", .string o.status.name), ("waitedMs", waited),
      ("durationMs", duration)] ++ o.error.toList.map fun error => ("error", .string error))

/-- An outcome is read as one with the times that its times are read as. -/
theorem readsAs_jsonWith (o : Outcome) {waited duration : Json}
    (hwaited : Json.ReadsAs (.number o.waitedMs) waited)
    (hduration : Json.ReadsAs (.number o.durationMs) duration) :
    o.json.ReadsAs (o.jsonWith waited duration) := by
  have hmember (name : String) {value read : Json} (h : value.ReadsAs read) :
      Json.MemberReadsAs (name, value) (name, read) := ⟨rfl, h⟩
  have herrors (errors : List String) : List.Forall₂ Json.MemberReadsAs
      (errors.map fun error => ("error", .string error))
      (errors.map fun error => ("error", .string error)) := by
    rw [List.forall₂_same]
    intro member hmem
    obtain ⟨error, -, rfl⟩ := List.mem_map.mp hmem
    exact hmember "error" (.string error)
  exact .object <| .cons (hmember _ (.string _)) <| .cons (hmember _ (.string _)) <|
    .cons (hmember _ hwaited) <| .cons (hmember _ hduration) <| herrors _

theorem ReadsAs.json {o read : Outcome} (h : o.ReadsAs read) : Json.ReadsAs o.json read.json := by
  have hread : read.json = o.jsonWith (.number read.waitedMs) (.number read.durationMs) := by
    unfold Outcome.json jsonWith
    rw [h.name, h.status, h.error]
  exact hread ▸ o.readsAs_jsonWith h.waitedMs.number h.durationMs.number

/-- An outcome whose times are legible is read as itself. -/
theorem readsAs_self {o : Outcome} (hwaited : Json.Legible o.waitedMs)
    (hduration : Json.Legible o.durationMs) : o.ReadsAs o :=
  ⟨rfl, rfl, rfl, hwaited, hduration⟩

end Outcome

namespace History

/-! ## Rows -/

variable {r : Report} {n : Number}

/-- The text of failures. -/
def failuresText (failures : List String) : String := (Json.array (failures.map .string)).compact

/-- The text of outcomes. -/
def tasksText (tasks : List Outcome) : String := (Json.array (tasks.map Outcome.json)).compact

/-- **The row of a report.** -/
def Row.ofReport (r : Report) : Row where
  runId := some r.runId
  maxParallel := .ofNumber r.maxParallel
  failures := failuresText r.failures
  tasks := tasksText r.tasks
  startedAt := .ofNumber r.startedAt
  finishedAt := .ofNumber r.finishedAt

theorem jsonPart_failures (failures : List String) :
    jsonPart (.array (failures.map .text)) = .ok (.text (failuresText failures)) := by
  have hdump : (Value.array (failures.map .text)).dump =
      .ok (some (.array (failures.map .string))) := Value.dump_array fun _ _ => rfl
  unfold jsonPart
  rw [hdump]
  rfl

theorem jsonPart_tasks (tasks : List Outcome) :
    jsonPart (.array (tasks.map Outcome.value)) = .ok (.text (tasksText tasks)) := by
  unfold jsonPart
  rw [Value.dump_array fun o _ => o.dump_value]
  rfl

theorem Cell.eq_of_number (n : Number) :
    (∃ i : Int, n = .finite i ∧ Cell.ofNumber n = .integer i) ∨ Cell.ofNumber n = .real n := by
  unfold Cell.ofNumber
  split
  · next i hi =>
    split
    · exact .inl ⟨i, Number.eq_of_int? hi, rfl⟩
    · exact .inr rfl
  · exact .inr rfl

/-- **A rounded number is read from its cell** as it was put in. -/
theorem Cell.read_of_exact (h : n.Exact) :
    (Cell.ofNumber n).value = .number n ∧ (Cell.ofNumber n).amount = n := by
  rcases Cell.eq_of_number n with ⟨i, rfl, hcell⟩ | hcell
  · have hwhole : Number.ofInt i = .finite i := h i (Number.int?_finite i)
    rw [hcell]
    exact ⟨congrArg Value.number hwhole, hwhole⟩
  · rw [hcell]
    exact ⟨rfl, rfl⟩

/-- A number is something, and what is not a number is nothing. -/
theorem required_number (column : String) (n : Number) :
    required column (if n = .nan then .empty else .real n) =
      if n = .nan then .error (missing column) else .ok (.ofNumber n) := by
  by_cases hn : n = .nan
  · rw [if_pos hn, if_pos hn]
    rfl
  · rw [if_neg hn, if_neg hn]
    have hstored : (Cell.real n).forNumbers = .ofNumber n := rfl
    unfold required
    rw [hstored]
    rcases Cell.eq_of_number n with ⟨i, -, hcell⟩ | hcell
    all_goals
      rw [hcell]

/-- **A report becomes its row**, or is refused for the first of its three numbers that is not a
number. -/
theorem Row.ofDraft_eq (r : Report) :
    Row.ofDraft (Draft.ofReport r) =
      if r.maxParallel = .nan then .error (missing "max_parallel")
      else if r.startedAt = .nan then .error (missing "started_at")
      else if r.finishedAt = .nan then .error (missing "finished_at")
      else .ok (Row.ofReport r) := by
  -- a text and a number fill one place each, so the six parts fill the six places
  have hbound := bound_of_fills <| .cons (fills_text r.runId) <|
    .cons (fills_ofNumber r.maxParallel) <| .cons (fills_text (failuresText r.failures)) <|
    .cons (fills_text (tasksText r.tasks)) <| .cons (fills_ofNumber r.startedAt) <|
    .cons (fills_ofNumber r.finishedAt) .nil
  unfold Row.ofDraft Draft.ofReport
  dsimp only
  rw [jsonPart_failures, jsonPart_tasks]
  change (Filling.bound 6 [.text r.runId, .number r.maxParallel,
      .text (failuresText r.failures), .text (tasksText r.tasks), .number r.startedAt,
      .number r.finishedAt]).bind Row.ofCells = _
  refine (congrArg (Except.bind · Row.ofCells) hbound).trans ?_
  unfold Except.bind Row.ofCells
  dsimp only
  rw [required_number, required_number, required_number]
  split_ifs <;> rfl

/-! ## Reading -/

theorem parsed_compact {tree read : Json} (h : tree.ReadsAs read) :
    parsed tree.compact = .ok (Value.ofJson read) := by
  unfold parsed
  rw [h.parse?_compact]

theorem parsed_failuresText (failures : List String) :
    parsed (failuresText failures) = .ok (.array (failures.map .text)) := by
  have hread : Json.ReadsAs (.array (failures.map .string)) (.array (failures.map .string)) := by
    refine .array (List.forall₂_same.mpr fun item hitem => ?_)
    obtain ⟨failure, -, rfl⟩ := List.mem_map.mp hitem
    exact .string failure
  rw [failuresText, parsed_compact hread]
  exact congrArg Except.ok (Value.ofJson_array fun _ _ => rfl)

theorem parsed_tasksText {tasks read : List Outcome}
    (h : List.Forall₂ Outcome.ReadsAs tasks read) :
    parsed (tasksText tasks) = .ok (.array (read.map Outcome.value)) := by
  have hread : Json.ReadsAs (.array (tasks.map Outcome.json)) (.array (read.map Outcome.json)) := by
    refine .array ?_
    rw [List.forall₂_map_left_iff, List.forall₂_map_right_iff]
    exact h.imp fun _ _ => Outcome.ReadsAs.json
  rw [tasksText, parsed_compact hread]
  exact congrArg Except.ok (Value.ofJson_array fun o _ => o.ofJson_json)

theorem mapM_map_eq_ok {α β γ : Type} {f : α → β} {g : β → Except Fault γ} {result : α → γ}
    {items : List α} (h : ∀ a ∈ items, g (f a) = .ok (result a)) :
    (items.map f).mapM g = .ok (items.map result) := by
  induction items with
  | nil => rfl
  | cons a items ih =>
    obtain ⟨ha, hitems⟩ := List.forall_mem_cons.mp h
    rw [List.map_cons, List.mapM_cons, ha, ih hitems]
    rfl

theorem failuresOf_texts (failures : List String) :
    failuresOf (.array (failures.map .text)) = .ok failures := by
  have htexts : (failures.map Value.text).mapM Value.plainText = .ok (failures.map fun s => s) :=
    mapM_map_eq_ok fun _ _ => rfl
  rwa [List.map_id'] at htexts

/-- What outcomes show passes the check of a list of outcomes. -/
theorem listShape_values {tasks : List Outcome}
    (h : ∀ o ∈ tasks, o.waitedMs ≠ .nan ∧ o.durationMs ≠ .nan) :
    Outcome.listShape (.array (tasks.map Outcome.value)) = .ok tasks :=
  Outcome.listShape_eq_ok_iff.mpr ⟨_, rfl, Outcome.forall₂_shown_value h⟩

/-- The entry in a row of a report whose outcomes are read as others. -/
def Entry.ofRow (r : Report) (read : List Outcome) : Entry where
  runId := some r.runId
  maxParallel := (Cell.ofNumber r.maxParallel).value
  failures := r.failures
  tasks := read
  startedAt := (Cell.ofNumber r.startedAt).value
  finishedAt := (Cell.ofNumber r.finishedAt).value
  durationMs := (Cell.ofNumber r.finishedAt).amount - (Cell.ofNumber r.startedAt).amount

/-- A row is read if its outcomes pass their check. -/
theorem Row.entry_eq {outcomes : Value} (h : parsed (tasksText r.tasks) = .ok outcomes) :
    (Row.ofReport r).entry =
      (Shape.demand (Row.ofReport r).tasksLabel (Outcome.listShape outcomes)).map
        (Entry.ofRow r) := by
  have hfailures : parsed (Row.ofReport r).failures = .ok (.array (r.failures.map .text)) :=
    parsed_failuresText r.failures
  have htasks : parsed (Row.ofReport r).tasks = .ok outcomes := h
  unfold Row.entry
  rw [hfailures, htasks]
  change (failuresOf (.array (r.failures.map .text))).bind _ = _
  rw [failuresOf_texts]
  rfl

/-- **What is read from the row of a report**, whichever way its outcomes are read. -/
theorem Row.entry_of_readsAs {read : List Outcome}
    (h : List.Forall₂ Outcome.ReadsAs r.tasks read) :
    (Row.ofReport r).entry = .ok (Entry.ofRow r read) := by
  have hnumbers : ∀ o ∈ read, o.waitedMs ≠ .nan ∧ o.durationMs ≠ .nan := by
    refine ((List.forall₂_and_left _ _).mp (h.flip.imp fun o task hread => ⟨?_, hread⟩)).1
    exact ⟨hread.waitedMs.writes.ne_nan, hread.durationMs.writes.ne_nan⟩
  rw [Row.entry_eq (parsed_tasksText h), Shape.demand_eq_ok_iff.mpr (listShape_values hnumbers)]
  rfl

/-- **What is read from the row of a report that loses nothing** agrees with the report in every
part. -/
theorem Row.entry_of_isLossless (h : r.IsLossless) :
    (Row.ofReport r).entry = .ok (Entry.ofReport r) := by
  have hread : List.Forall₂ Outcome.ReadsAs r.tasks r.tasks :=
    List.forall₂_same.mpr fun o ho => Outcome.readsAs_self (h.tasks o ho).1 (h.tasks o ho).2
  obtain ⟨hlimit, -⟩ := Cell.read_of_exact h.maxParallel.exact
  obtain ⟨hstart, hstarted⟩ := Cell.read_of_exact h.startedAt.exact
  obtain ⟨hfinish, hfinished⟩ := Cell.read_of_exact h.finishedAt.exact
  rw [Row.entry_of_readsAs hread]
  unfold Entry.ofRow Entry.ofReport
  rw [hlimit, hstart, hfinish, hstarted, hfinished, ← h.durationMs]

/-- **What is read from the row of a regular report** agrees with the report in every part. -/
theorem Row.entry_ofReport (h : r.IsRegular) : (Row.ofReport r).entry = .ok (Entry.ofReport r) :=
  Row.entry_of_isLossless h.isLossless

end History

end BoundedJobs
