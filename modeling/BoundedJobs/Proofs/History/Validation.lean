import BoundedJobs.Proofs.Issues
import BoundedJobs.Proofs.Json.Members
import BoundedJobs.Runner.Report

/-!
# Stored outcomes are checked exactly and completely

What a row holds in place of its outcomes may be anything. It is read if it is an array of objects
that each show an outcome, and then the outcomes are read in order, without what else the objects
hold. Otherwise all that is wrong with it is reported: once for each field that does not fit,
element by element and in the order of the fields, once for an element that is no object, and once
for a value that is no array.

A value may refuse to be looked at altogether. Where the check meets such a value it throws what the
value throws; nothing that was read from a text is such a value.

* `Outcome.Shown` — an element that shows an outcome, and `Outcome.shape_eq_ok_iff`, these pass;
* `Outcome.fieldProblems`, `Outcome.remarks`, `Outcome.complaints` — what is to be said of an
  element and of the whole;
* `Outcome.issues_shape`, `Outcome.texts_issues_listShape` — this is what the check reports;
* `Outcome.Conceals` — a value that refuses to be looked at where the check looks;
* `Outcome.demand_listShape` — what is read, what is reported, and when.
-/

namespace BoundedJobs

namespace Outcome

open Shape

variable {value element : Value} {o : Outcome} {label : String}

/-! ## What passes -/

/-- **An element that shows an outcome.** It may hold anything under other names. -/
structure Shown (element : Value) (o : Outcome) : Prop where
  object : element.typeName = "object"
  name : element.field "name" = .text o.name
  status : element.field "status" = .text o.status.name
  error : element.field "error" = .absent ∧ o.error = none ∨
    ∃ message, element.field "error" = .text message ∧ o.error = some message
  waitedMs : element.field "waitedMs" = .number o.waitedMs ∧ o.waitedMs ≠ .nan
  durationMs : element.field "durationMs" = .number o.durationMs ∧ o.durationMs ≠ .nan

theorem statusShape_eq_ok_iff {status : Status} :
    statusShape value = .ok status ↔ value = .text status.name := by
  constructor
  · intro h
    unfold statusShape at h
    split at h
    · cases h
      rfl
    · cases h
      rfl
    · cases h
    · exact absurd h mismatch_ne_ok
  · rintro rfl
    cases status <;> rfl

theorem errorShape_eq_ok_iff {error : Option String} :
    errorShape value = .ok error ↔ ∃ message, value = .text message ∧ error = some message := by
  unfold errorShape
  rw [Checked.map_eq_ok_iff]
  exact exists_congr fun message => and_congr string_eq_ok_iff eq_comm

/-- **An element passes exactly if it shows the outcome that is read.** -/
theorem shape_eq_ok_iff : shape element = .ok o ↔ Shown element o := by
  have hfields : ∀ fields : String × Status × Option String × Number × Number,
      (⟨fields.1, fields.2.1, fields.2.2.1, fields.2.2.2.1, fields.2.2.2.2⟩ : Outcome) = o ↔
        fields = (o.name, o.status, o.error, o.waitedMs, o.durationMs) := by
    rintro ⟨name, status, error, waited, duration⟩
    constructor
    · rintro rfl
      rfl
    · intro h
      cases h
      rfl
  unfold shape
  rw [objectWith_eq_ok_iff, Checked.map_eq_ok_iff]
  simp only [hfields, exists_eq_right, Checked.both_eq_ok_iff, field_eq_ok_iff]
  rw [fieldOr_eq_ok_iff (fun _ h => by cases h), errorShape_eq_ok_iff, string_eq_ok_iff,
    statusShape_eq_ok_iff, number_eq_ok_iff, number_eq_ok_iff]
  constructor
  · rintro ⟨-, hobject, hname, hstatus, herror, hwaited, hduration⟩
    exact ⟨hobject, hname, hstatus, herror, hwaited, hduration⟩
  · intro shown
    refine ⟨?_, shown.object, shown.name, shown.status, shown.error, shown.waitedMs,
      shown.durationMs⟩
    -- a value that refuses to be looked at shows no name
    rintro rfl
    cases shown.name

/-- What an outcome shows is the outcome. -/
theorem shown_value (hwaited : o.waitedMs ≠ .nan) (hduration : o.durationMs ≠ .nan) :
    Shown o.value o := by
  obtain ⟨name, status, error, waited, duration⟩ := o
  -- an absent error leaves no field at all, so what stands where depends on it
  cases error with
  | none => exact ⟨rfl, rfl, rfl, Or.inl ⟨rfl, rfl⟩, ⟨rfl, hwaited⟩, rfl, hduration⟩
  | some message =>
    exact ⟨rfl, rfl, rfl, Or.inr ⟨message, rfl, rfl⟩, ⟨rfl, hwaited⟩, rfl, hduration⟩

theorem shapes_eq_ok_iff {elements : List Value} {tasks : List Outcome} :
    List.Forall₂ (fun element o => shape element = .ok o) elements tasks ↔
      List.Forall₂ Shown elements tasks := by
  simp only [shape_eq_ok_iff]

/-- A value passes if each of its elements shows an outcome. -/
theorem listShape_eq_ok_iff_elements {tasks : List Outcome} :
    listShape value = .ok tasks ↔
      ∃ elements, value.elements? = some elements ∧ List.Forall₂ Shown elements tasks := by
  unfold listShape
  rw [arrayOf_eq]
  cases value.elements? with
  | some elements =>
    simp only [Option.some.injEq, exists_eq_left']
    exact Checked.eachFrom_eq_ok_iff.trans shapes_eq_ok_iff
  | none => exact iff_of_false mismatch_ne_ok nofun

/-- **A value passes exactly if it is an array of elements that show the outcomes.** -/
theorem listShape_eq_ok_iff {tasks : List Outcome} :
    listShape value = .ok tasks ↔
      ∃ elements, value = .array elements ∧ List.Forall₂ Shown elements tasks := by
  rw [listShape_eq_ok_iff_elements]
  constructor
  · rintro ⟨elements, helements, hshown⟩
    unfold Value.elements? at helements
    split at helements
    · next items =>
      obtain rfl := Option.some.inj helements
      exact ⟨items, rfl, hshown⟩
    · cases helements
  · rintro ⟨elements, rfl, hshown⟩
    exact ⟨elements, rfl, hshown⟩

/-- Outcomes whose times are numbers show themselves. -/
theorem forall₂_shown_value {tasks : List Outcome}
    (h : ∀ o ∈ tasks, o.waitedMs ≠ .nan ∧ o.durationMs ≠ .nan) :
    List.Forall₂ Shown (tasks.map Outcome.value) tasks := by
  rw [List.forall₂_map_left_iff, List.forall₂_same]
  exact fun o ho => shown_value (h o ho).1 (h o ho).2

/-! ## What is reported -/

/-- What is wrong with a value that should be the name of a status. -/
def statusProblem? : Value → Option Problem
  | .text name => if name = "ok" ∨ name = "failed" then none else some (.wrongChoice name)
  | value => some (misfit choices value)

/-- What is wrong with the value of each field, in the order of the fields. -/
def fieldProblems : List (String × (Value → Option Problem)) :=
  [("name", textProblem?), ("status", statusProblem?), ("error", unlessAbsent textProblem?),
    ("waitedMs", numberProblem?), ("durationMs", numberProblem?)]

/-- **What is to be said of an element**: one problem for each field that does not fit, with the
name of the field, or one without a name for an element that is no object. -/
def remarks (element : Value) : List (Option String × Problem) :=
  if element.typeName = "object" then
    fieldProblems.flatMap fun (name, problem?) =>
      (problem? (element.field name)).toList.map fun problem => (some name, problem)
  else [(none, misfit "object" element)]

/-- **What is to be said of the whole**: all remarks on the elements, each with the number of the
element and the name of the field in front, or that it is no array. -/
def complaints (value : Value) : List String :=
  match value.elements? with
  | none => [(misfit "array" value).message]
  | some elements => elements.zipIdx.flatMap fun (element, number) =>
      (remarks element).map fun (field?, problem) =>
        toString number ++ field?.elim "" ("." ++ ·) ++ ": " ++ problem.message

theorem spots_statusShape : Spots statusShape statusProblem? := by
  intro value
  cases value with
  | text name =>
    -- a text that is neither of the two names is a problem of another kind
    by_cases hname : name = "ok" ∨ name = "failed"
    · rcases hname with rfl | rfl <;> rfl
    · obtain ⟨hok, hfailed⟩ := not_or.mp hname
      have hstatus : statusShape (.text name) = .fail (.wrongChoice name) := by
        unfold statusShape
        split
        · next h => exact absurd (Value.text.inj h) hok
        · next h => exact absurd (Value.text.inj h) hfailed
        · next h => rw [Value.text.inj h]
        · next h => exact absurd rfl (h name)
      unfold statusProblem?
      dsimp only
      rw [hstatus, if_neg hname]
      rfl
  | _ => exact issues_of_mismatch choices rfl rfl

theorem spots_errorShape : Spots errorShape textProblem? := by
  intro value
  unfold errorShape
  rw [Checked.issues_map]
  exact spots_string value

/-- **What the check of an element reports.** -/
theorem issues_shape (h : element ≠ .revoked) :
    (shape element).issues =
      (remarks element).map fun (field?, problem) => ⟨field?.toList, problem⟩ := by
  -- one issue for a field is one remark with the name of the field
  have hfield (name : String) (problem? : Option Problem) :
      (problem?.toList.map fun problem => (⟨[name], problem⟩ : Issue)) =
        (problem?.toList.map fun problem => (some name, problem)).map
          fun (field?, problem) => ⟨field?.toList, problem⟩ := by
    cases problem? <;> rfl
  unfold shape remarks
  rw [issues_objectWith _ h]
  split
  · rw [Checked.issues_map]
    simp only [Checked.issues_both, spots_string.issues_field, spots_statusShape.issues_field,
      spots_errorShape.issues_fieldOr, spots_number.issues_field, hfield]
    simp only [fieldProblems, List.flatMap_cons, List.flatMap_nil, List.map_append, List.append_nil]
  · rfl

/-- The text of an issue with an element: the number of the element, the name of the field if there
is one, and the problem. -/
theorem text_within (number : String) (field? : Option String) (problem : Problem) :
    (Issue.within number ⟨field?.toList, problem⟩).text =
      number ++ field?.elim "" ("." ++ ·) ++ ": " ++ problem.message := by
  cases field? with
  | none => simp [Issue.within, Issue.text]
  | some name => simp [Issue.within, Issue.text, String.append_assoc]

/-- **What the check reports**, as it stands in the message. -/
theorem texts_issues_listShape
    (h : ∀ elements, value.elements? = some elements → ∀ element ∈ elements, element ≠ .revoked) :
    (listShape value).issues.map Issue.text = complaints value := by
  unfold listShape complaints
  rw [issues_arrayOf]
  cases helements : value.elements? with
  | none => rfl
  | some elements =>
    dsimp only
    rw [List.map_flatMap]
    refine List.flatMap_congr fun (element, number) hmem => ?_
    rw [issues_shape (h elements helements element (List.fst_mem_of_mem_zipIdx hmem))]
    rw [List.map_map, List.map_map]
    exact List.map_congr_left fun (field?, problem) _ => text_within _ field? problem

theorem textProblem?_eq_none_iff : textProblem? value = none ↔ ∃ text, value = .text text := by
  cases value <;> simp [textProblem?]

theorem numberProblem?_eq_none_iff :
    numberProblem? value = none ↔ ∃ n, value = .number n ∧ n ≠ .nan := by
  cases value <;> simp [numberProblem?]

theorem statusProblem?_eq_none_iff :
    statusProblem? value = none ↔ ∃ status : Status, value = .text status.name := by
  have hnames : ∀ name : String, (name = "ok" ∨ name = "failed") ↔
      ∃ status : Status, name = status.name := by
    intro name
    constructor
    · rintro (rfl | rfl)
      · exact ⟨.ok, rfl⟩
      · exact ⟨.failed, rfl⟩
    · rintro ⟨status, rfl⟩
      cases status
      · exact Or.inl rfl
      · exact Or.inr rfl
  cases value <;> simp [statusProblem?, hnames]

theorem errorProblem?_eq_none_iff : unlessAbsent textProblem? value = none ↔
    ∃ error : Option String, value = .absent ∧ error = none ∨
      ∃ message, value = .text message ∧ error = some message := by
  cases value <;> simp [unlessAbsent, textProblem?]

/-- **Nothing is to be said exactly of the elements that show an outcome.** -/
theorem remarks_eq_nil_iff : remarks element = [] ↔ ∃ o, Shown element o := by
  unfold remarks
  split
  · next hobject =>
    have hproblems : (fieldProblems.flatMap fun (name, problem?) =>
        (problem? (element.field name)).toList.map fun problem => (some name, problem)) = [] ↔
          ∀ entry ∈ fieldProblems, entry.2 (element.field entry.1) = none := by
      simp
    rw [hproblems]
    simp only [fieldProblems, List.forall_mem_cons, List.not_mem_nil, false_implies, implies_true,
      and_true, textProblem?_eq_none_iff, statusProblem?_eq_none_iff, errorProblem?_eq_none_iff,
      numberProblem?_eq_none_iff]
    -- each field gives its part of the outcome, and the outcome all of the fields
    constructor
    · rintro ⟨⟨name, hname⟩, ⟨status, hstatus⟩, ⟨error, herror⟩, ⟨waited, hwaited⟩,
        ⟨duration, hduration⟩⟩
      exact ⟨⟨name, status, error, waited, duration⟩, hobject, hname, hstatus, herror, hwaited,
        hduration⟩
    · rintro ⟨o, shown⟩
      exact ⟨⟨o.name, shown.name⟩, ⟨o.status, shown.status⟩, ⟨o.error, shown.error⟩,
        ⟨o.waitedMs, shown.waitedMs⟩, ⟨o.durationMs, shown.durationMs⟩⟩
  · next hobject => exact iff_of_false nofun fun ⟨_, shown⟩ => hobject shown.object

/-- **Nothing is to be said exactly of the values that are read.** -/
theorem complaints_eq_nil_iff :
    complaints value = [] ↔ ∃ tasks, listShape value = .ok tasks := by
  -- the elements are checked one by one, but the outcomes are read as one list
  have hshown : ∀ elements : List Value,
      (∀ element ∈ elements, ∃ o, Shown element o) ↔
        ∃ tasks, List.Forall₂ Shown elements tasks := by
    intro elements
    induction elements with
    | nil => exact iff_of_true nofun ⟨[], .nil⟩
    | cons element elements ih =>
      rw [List.forall_mem_cons, ih]
      constructor
      · rintro ⟨⟨o, hfirst⟩, tasks, hothers⟩
        exact ⟨o :: tasks, .cons hfirst hothers⟩
      · rintro ⟨_, _ | ⟨hfirst, hothers⟩⟩
        exact ⟨⟨_, hfirst⟩, _, hothers⟩
  simp only [listShape_eq_ok_iff_elements]
  unfold complaints
  cases value.elements? with
  | none => exact iff_of_false nofun nofun
  | some elements =>
    simp only [Option.some.injEq, exists_eq_left', ← hshown, ← remarks_eq_nil_iff]
    rw [List.flatMap_eq_nil_iff]
    simp only [List.map_eq_nil_iff]
    constructor
    · -- an element is remarked on together with its position
      intro h element hmem
      obtain ⟨number, hnumber⟩ := List.getElem?_of_mem hmem
      exact h (element, number) (List.mk_mem_zipIdx_iff_getElem?.mpr hnumber)
    · intro h entry hmem
      exact h entry.1 (List.fst_mem_of_mem_zipIdx hmem)

/-! ## What refuses to be looked at -/

/-- **A value that refuses to be looked at where the check looks**: it is such a value itself, or
one of its elements is, or one of the fields of one of them. -/
def Conceals (value : Value) : Prop :=
  value = .revoked ∨ ∃ elements, value.elements? = some elements ∧ ∃ element ∈ elements,
    element = .revoked ∨ ∃ entry ∈ fieldProblems, element.field entry.1 = .revoked

theorem refuses_statusShape : (statusShape value).Refuses ↔ value = .revoked := by
  cases value with
  | text name =>
    refine iff_of_false ?_ nofun
    rintro ⟨issue, hmem, hrefused⟩
    rw [spots_statusShape] at hmem
    obtain ⟨problem, hproblem, rfl⟩ := List.mem_map.mp hmem
    unfold statusProblem? at hproblem
    dsimp only at hproblem hrefused
    split at hproblem
    · cases hproblem
    · obtain rfl := List.mem_singleton.mp hproblem
      cases hrefused
  | _ => exact refuses_of_mismatch choices rfl

theorem refuses_errorShape : (errorShape value).Refuses ↔ value = .revoked :=
  Checked.refuses_map.trans refuses_string

/-- Only an object has fields. -/
theorem field_eq_absent {name : String} (h : element.typeName ≠ "object") :
    element.field name = .absent := by
  cases element with
  | object | bare | fault | messaged | unreadable => exact absurd rfl h
  | _ => rfl

/-- The check of an element meets such a value if the element or one of its fields is one. -/
theorem refuses_shape : (shape element).Refuses ↔
    element = .revoked ∨ ∃ entry ∈ fieldProblems, element.field entry.1 = .revoked := by
  have habsent : ¬ (errorShape .absent).Refuses := fun h => nomatch refuses_errorShape.mp h
  unfold shape
  rw [refuses_objectWith]
  by_cases hobject : element.typeName = "object"
  · rw [and_iff_right hobject, Checked.refuses_map]
    simp only [Checked.refuses_both, refuses_field, refuses_fieldOr habsent, refuses_string,
      refuses_statusShape, refuses_errorShape, refuses_number]
    simp only [fieldProblems, List.exists_mem_cons_iff, List.not_mem_nil, false_and, exists_const,
      or_false]
  · rw [or_congr_right]
    refine iff_of_false (fun h => hobject h.1) ?_
    rintro ⟨entry, -, hrevoked⟩
    rw [field_eq_absent hobject] at hrevoked
    cases hrevoked

theorem refuses_listShape : (listShape value).Refuses ↔ Conceals value := by
  unfold listShape Conceals
  rw [refuses_arrayOf]
  simp only [refuses_shape]

/-- **Nothing that was read from a text is such a value.** -/
theorem not_conceals_ofJson (tree : Json) : ¬ Conceals (Value.ofJson tree) := by
  have helement : ∀ items : List Json, ∀ element ∈ Value.ofItems items,
      ∃ item, element = Value.ofJson item := by
    intro items
    induction items with
    | nil => exact nofun
    | cons item items ih => exact List.forall_mem_cons.mpr ⟨⟨item, rfl⟩, ih⟩
  rintro (hrevoked | ⟨elements, helements, element, hmem, hrevoked⟩)
  · exact Value.ofJson_ne_revoked tree hrevoked
  · cases tree with
    | array items =>
      obtain rfl := Option.some.inj helements
      obtain ⟨item, rfl⟩ := helement items element hmem
      -- the element itself, or one of the fields that are looked at
      rcases hrevoked with hrevoked | ⟨entry, -, hrevoked⟩
      · exact Value.ofJson_ne_revoked item hrevoked
      · exact Value.field_ofJson_ne_revoked entry.1 item hrevoked
    | _ => cases helements

/-! ## The whole -/

/-- **Stored outcomes are checked exactly and completely.** They are read if they are an array of
elements that show them, and what was read is read again as it is. There is something to be said of
any other value, and the error is a `ValidationError` that lists all of it — unless the check met a
value that refuses to be looked at, which nothing that was read from a text holds. -/
theorem demand_listShape (label : String) (value : Value) :
    (∀ tasks, demand label (listShape value) = .ok tasks ↔
      ∃ elements, value = .array elements ∧ List.Forall₂ Shown elements tasks) ∧
    (∀ tasks, demand label (listShape value) = .ok tasks →
      demand label (listShape (.array (tasks.map Outcome.value))) = .ok tasks) ∧
    (complaints value = [] ↔ ∃ tasks, demand label (listShape value) = .ok tasks) ∧
    (∀ fault, demand label (listShape value) = .error fault →
      (¬ Conceals value → fault =
        { kind := .validation,
          message := "Invalid " ++ label ++ ": " ++ "; ".intercalate (complaints value) }) ∧
      (Conceals value → fault = Value.noAccess)) ∧
    ∀ tree, ¬ Conceals (Value.ofJson tree) := by
  refine ⟨fun tasks => ?_, fun tasks h => ?_, ?_, fun fault h => ?_, not_conceals_ofJson⟩
  · rw [demand_eq_ok_iff, listShape_eq_ok_iff]
  · obtain ⟨elements, -, hshown⟩ := listShape_eq_ok_iff.mp (demand_eq_ok_iff.mp h)
    -- what was read shows numbers
    have htimes := ((List.forall₂_and_left (p := fun o : Outcome => o.waitedMs ≠ .nan ∧
      o.durationMs ≠ .nan) tasks elements).mp (hshown.flip.imp fun _ _ shown =>
        ⟨⟨shown.waitedMs.2, shown.durationMs.2⟩, shown⟩)).1
    rw [demand_eq_ok_iff, listShape_eq_ok_iff]
    exact ⟨tasks.map Outcome.value, rfl, forall₂_shown_value htimes⟩
  · simp only [complaints_eq_nil_iff, demand_eq_ok_iff]
  · cases hlist : listShape value with
    | ok tasks =>
      rw [hlist] at h
      cases h
    | error found =>
      rw [hlist] at h
      obtain rfl := Except.error.inj h
      have hrefuses : Checked.Refuses (.error found : Checked (List Outcome)) ↔ Conceals value := by
        rw [← hlist, refuses_listShape]
      constructor
      · intro hopen
        have htexts : found.map Issue.text = complaints value := by
          rw [← texts_issues_listShape, hlist]
          · rfl
          · intro elements helements element hmem hrevoked
            exact hopen (Or.inr ⟨elements, helements, element, hmem, Or.inl hrevoked⟩)
        rw [fault_of_not_refuses (mt hrefuses.mp hopen), htexts]
      · intro hconceals
        exact fault_of_refuses (hrefuses.mpr hconceals)

/-- Three elements: an outcome with one field too many, a number, and an object whose fields are
missing or do not fit. -/
def mixedElements : Value :=
  .array
    [.object [("name", .text "build"), ("note", .null), ("status", .text "ok"),
        ("waitedMs", .number (.finite 0)), ("durationMs", .number (.finite (1 / 2)))],
      .number (.finite 5),
      .object [("durationMs", .number .nan), ("status", .text "late"), ("error", .null),
        ("waitedMs", .text "1")]]

theorem demand_listShape_mixedElements :
    demand "outcomes" (listShape mixedElements) =
      .error
        { kind := .validation,
          message := "Invalid outcomes: " ++ "; ".intercalate
            ["1: Expected object, received number", "2.name: Required",
              "2.status: Invalid enum value. Expected 'ok' | 'failed', received 'late'",
              "2.error: Expected string, received null",
              "2.waitedMs: Expected number, received string",
              "2.durationMs: Expected number, received nan"] } := by
  have hcomplaints : complaints mixedElements =
      ["1: Expected object, received number", "2.name: Required",
        "2.status: Invalid enum value. Expected 'ok' | 'failed', received 'late'",
        "2.error: Expected string, received null",
        "2.waitedMs: Expected number, received string",
        "2.durationMs: Expected number, received nan"] := by
    decide +kernel
  -- every element can be looked at, so all complaints are collected
  have hopen : ¬ Conceals mixedElements := by
    rintro (h | ⟨elements, helements, h⟩)
    · cases h
    · obtain rfl := Option.some.inj helements
      simp [fieldProblems, Value.field, Json.lookupLast] at h
  obtain ⟨-, -, hread, hfault, -⟩ := demand_listShape "outcomes" mixedElements
  cases hdemand : demand "outcomes" (listShape mixedElements) with
  | ok tasks =>
    rw [hread.mpr ⟨tasks, hdemand⟩] at hcomplaints
    cases hcomplaints
  | error fault =>
    rw [(hfault fault hdemand).1 hopen, hcomplaints]
    rfl

end Outcome

end BoundedJobs
