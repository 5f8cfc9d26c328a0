import BoundedJobs.Proofs.Shape

/-!
# Checks that find something

A check does not stop at the first thing that is wrong. Checks that are put together report what
each of them reports, in their order, and a check one step further in reports the same with that
step in front. So the issues of a shape can be read off it, whether the check succeeds or not.

* `Shape.Checked.issues` — what a check reports, and `Shape.Issue.within`, the same one step out;
* `Shape.Checked.issues_both`, `Shape.Checked.issues_map`, `Shape.Checked.issues_eachFrom`,
  `Shape.issues_field`, `Shape.issues_arrayOf`, `Shape.issues_objectWith` — checks put together;
* `Shape.misfit`, `Shape.textProblem?`, `Shape.numberProblem?` — what can be wrong with a value
  that should be of a simple type, and `Shape.Spots`, a check that reports just that;
* `Shape.Checked.Refuses` — a check that met a value that refuses to be looked at, and
  `Shape.fault_of_not_refuses`, the one `ValidationError` of any other check that fails.
-/

namespace BoundedJobs

/-- The items of an array, as a check meets them. -/
def Value.elements? {τ : Type} : Value τ → Option (List (Value τ))
  | .array items => some items
  | _ => none

namespace Shape

variable {α β τ : Type} {name : String} {value : Value τ}

/-- The issue as it is reported one step further out. -/
def Issue.within (step : String) (issue : Issue) : Issue :=
  { issue with path := step :: issue.path }

namespace Checked

/-- **What a check reports**: nothing if it succeeds. -/
def issues : Checked α → List Issue
  | .ok _ => []
  | .error issues => issues

theorem issues_both (first : Checked α) (second : Checked β) :
    (both first second).issues = first.issues ++ second.issues := by
  cases first with
  | ok a => cases second <;> rfl
  | error found =>
    cases second with
    | ok b => exact (List.append_nil found).symm
    | error more => rfl

theorem issues_map (checked : Checked α) (f : α → β) :
    issues (checked.map f) = checked.issues := by
  cases checked <;> rfl

theorem issues_under (step : String) (checked : Checked α) :
    (under step checked).issues = checked.issues.map (Issue.within step) := by
  cases checked <;> rfl

theorem eachFrom_cons (check : Value τ → Checked α) (start : Nat) (item : Value τ)
    (items : List (Value τ)) :
    eachFrom check start (item :: items) =
      (both (under (toString start) (check item)) (eachFrom check (start + 1) items)).map
        fun (first, others) => first :: others := by
  rw [eachFrom]
  split
  · next first others hboth =>
    rw [hboth]
    rfl
  · next found hboth =>
    rw [hboth]
    rfl

/-- Every item is reported on under its own number. -/
theorem issues_eachFrom (check : Value τ → Checked α) (start : Nat) (items : List (Value τ)) :
    (eachFrom check start items).issues =
      (items.zipIdx start).flatMap fun (item, number) =>
        (check item).issues.map (Issue.within (toString number)) := by
  induction items generalizing start with
  | nil => rfl
  | cons item items ih =>
    rw [eachFrom_cons, issues_map, issues_both, issues_under, ih (start + 1), List.zipIdx_cons,
      List.flatMap_cons]

end Checked

open Checked

section

variable [DecidableEq τ] [Wording τ]

theorem issues_field (check : Value τ → Checked α) :
    (field name check value).issues =
      (check (value.field name)).issues.map (Issue.within name) :=
  issues_under name _

theorem fieldOr_of_ne_absent {default : α} {check : Value τ → Checked α}
    (h : value.field name ≠ .absent) :
    fieldOr name default check value = field name check value := by
  unfold fieldOr
  split
  · next habsent => exact absurd habsent h
  · rfl

end

/-! ## Simple types -/

/-- What is wrong with a value that is not of the expected type. -/
def misfit (expected : String) : Value τ → Problem
  | .absent => .required
  | .revoked => .refused
  | value => .wrongType expected value.typeName

theorem mismatch_eq (expected : String) (value : Value τ) :
    (mismatch expected value : Checked α) = .fail (misfit expected value) := by
  cases value <;> rfl

theorem issues_mismatch (expected : String) (value : Value τ) :
    (mismatch expected value : Checked α).issues = [⟨[], misfit expected value⟩] := by
  rw [mismatch_eq]
  rfl

/-- Nothing but what cannot be looked at is reported as such. -/
theorem misfit_eq_refused_iff {expected : String} :
    misfit expected value = .refused ↔ value = .revoked := by
  cases value <;> simp [misfit]

/-- What is wrong with a value that should be a text. -/
def textProblem? : Value τ → Option Problem
  | .text _ => none
  | value => some (misfit "string" value)

/-- What is wrong with a value that should be a number. -/
def numberProblem? (value : Value τ) : Option Problem :=
  match value with
  | .number n => if n = .nan then some (misfit "number" value) else none
  | _ => some (misfit "number" value)

/-- What is wrong with a value that may also be missing. -/
def unlessAbsent (problem? : Value τ → Option Problem) : Value τ → Option Problem
  | .absent => none
  | value => problem? value

theorem unlessAbsent_of_ne {problem? : Value τ → Option Problem} (h : value ≠ .absent) :
    unlessAbsent problem? value = problem? value := by
  cases value with
  | absent => exact absurd rfl h
  | _ => rfl

/-- **A check of one place**: all that it can report is what `problem?` says about the value. -/
def Spots (check : Value τ → Checked α) (problem? : Value τ → Option Problem) : Prop :=
  ∀ value, (check value).issues = (problem? value).toList.map fun problem => ⟨[], problem⟩

/-- A value of another type is reported as such. -/
theorem issues_of_mismatch (expected : String) {check : Value τ → Checked α}
    {problem? : Value τ → Option Problem} (hcheck : check value = mismatch expected value)
    (hproblem : problem? value = some (misfit expected value)) :
    (check value).issues = (problem? value).toList.map fun problem => ⟨[], problem⟩ := by
  rw [hcheck, hproblem, issues_mismatch]
  rfl

theorem spots_string : Spots (string : Value τ → Checked τ) textProblem? := by
  intro value
  cases value with
  | text s => rfl
  | _ => exact issues_of_mismatch "string" rfl rfl

theorem spots_number : Spots (number : Value τ → Checked Number) numberProblem? := by
  intro value
  cases value with
  | number n =>
    by_cases hnan : n = .nan
    · subst hnan
      rfl
    · unfold number numberProblem?
      dsimp only
      rw [if_neg hnan, if_neg hnan]
      rfl
  | _ => exact issues_of_mismatch "number" rfl rfl

section

variable [DecidableEq τ] [Wording τ]

/-- A field is reported once if there is something wrong with its value. -/
theorem Spots.issues_field {check : Value τ → Checked α} {problem? : Value τ → Option Problem}
    (spots : Spots check problem?) (value : Value τ) :
    (field name check value).issues =
      (problem? (value.field name)).toList.map fun problem => ⟨[name], problem⟩ := by
  rw [Shape.issues_field, spots, List.map_map]
  rfl

/-- A field that may be missing is not reported then. -/
theorem Spots.issues_fieldOr {default : α} {check : Value τ → Checked α}
    {problem? : Value τ → Option Problem} (spots : Spots check problem?) (value : Value τ) :
    (fieldOr name default check value).issues =
      (unlessAbsent problem? (value.field name)).toList.map fun problem => ⟨[name], problem⟩ := by
  by_cases habsent : value.field name = .absent
  · unfold fieldOr
    rw [habsent]
    rfl
  · rw [fieldOr_of_ne_absent habsent, unlessAbsent_of_ne habsent, spots.issues_field]

end

/-! ## Arrays and objects -/

theorem arrayOf_eq (check : Value τ → Checked α) (value : Value τ) :
    arrayOf check value =
      match value.elements? with
      | some elements => eachFrom check 0 elements
      | none => mismatch "array" value := by
  cases value <;> rfl

theorem issues_arrayOf (check : Value τ → Checked α) (value : Value τ) :
    (arrayOf check value).issues =
      match value.elements? with
      | some elements => elements.zipIdx.flatMap fun (element, number) =>
          (check element).issues.map (Issue.within (toString number))
      | none => [⟨[], misfit "array" value⟩] := by
  rw [arrayOf_eq]
  cases value.elements? with
  | some elements => exact issues_eachFrom check 0 elements
  | none => exact issues_mismatch "array" value

theorem issues_objectWith (fields : Value τ → Checked α) (h : value ≠ .revoked) :
    (objectWith fields value).issues =
      if value.typeName = "object" then (fields value).issues
      else [⟨[], misfit "object" value⟩] := by
  unfold objectWith
  split
  · exact absurd rfl h
  · split
    · rfl
    · exact issues_mismatch "object" value

/-! ## What refuses to be looked at -/

/-- **A check that met a value that refuses to be looked at.** -/
def Checked.Refuses (checked : Checked α) : Prop :=
  ∃ issue ∈ checked.issues, issue.problem = .refused

namespace Checked

theorem refuses_both {first : Checked α} {second : Checked β} :
    (both first second).Refuses ↔ first.Refuses ∨ second.Refuses := by
  unfold Refuses
  rw [issues_both]
  simp only [List.mem_append, or_and_right, exists_or]

theorem refuses_map {checked : Checked α} {f : α → β} :
    Refuses (checked.map f) ↔ checked.Refuses := by
  unfold Refuses
  rw [issues_map]

theorem refuses_under {step : String} {checked : Checked α} :
    (under step checked).Refuses ↔ checked.Refuses := by
  unfold Refuses
  rw [issues_under]
  simp only [List.mem_map, exists_exists_and_eq_and]
  rfl

theorem refuses_eachFrom {check : Value τ → Checked α} {start : Nat} {items : List (Value τ)} :
    (eachFrom check start items).Refuses ↔ ∃ item ∈ items, (check item).Refuses := by
  induction items generalizing start with
  | nil => exact iff_of_false nofun nofun
  | cons item items ih => rw [eachFrom_cons, refuses_map, refuses_both, refuses_under, ih,
      List.exists_mem_cons_iff]

end Checked

theorem refuses_of_mismatch (expected : String) {checked : Checked α}
    (h : checked = mismatch expected value) : checked.Refuses ↔ value = .revoked := by
  unfold Refuses
  rw [h, issues_mismatch]
  simp only [List.mem_singleton, exists_eq_left]
  exact misfit_eq_refused_iff

theorem refuses_string : (string value).Refuses ↔ value = .revoked := by
  cases value with
  | text s => exact iff_of_false nofun nofun
  | _ => exact refuses_of_mismatch "string" rfl

theorem refuses_number : (number value).Refuses ↔ value = .revoked := by
  cases value with
  | number n =>
    unfold number
    dsimp only
    split
    · exact refuses_of_mismatch "number" rfl
    · exact iff_of_false nofun nofun
  | _ => exact refuses_of_mismatch "number" rfl

/-- A number that is not whole can still be looked at. -/
theorem refuses_integer : (integer value).Refuses ↔ value = .revoked := by
  unfold integer
  cases hn : number value with
  | error found => exact (hn ▸ refuses_number : Checked.Refuses (.error found : Checked Number) ↔ _)
  | ok n =>
    refine iff_of_false ?_ fun hrevoked => ?_
    · dsimp only [bind, Except.bind]
      split
      · exact nofun
      · rintro ⟨issue, hmem, hproblem⟩
        rw [List.mem_singleton.mp hmem] at hproblem
        cases hproblem
    · cases hrevoked ▸ eq_number_of_ok hn

section

variable [DecidableEq τ] [Wording τ]

theorem refuses_field {check : Value τ → Checked α} :
    (field name check value).Refuses ↔ (check (value.field name)).Refuses :=
  refuses_under

theorem refuses_fieldOr {default : α} {check : Value τ → Checked α}
    (h : ¬ (check .absent).Refuses) :
    (fieldOr name default check value).Refuses ↔ (check (value.field name)).Refuses := by
  by_cases habsent : value.field name = .absent
  · unfold fieldOr
    rw [habsent]
    exact iff_of_false nofun h
  · rw [fieldOr_of_ne_absent habsent, refuses_field]

end

theorem refuses_arrayOf {check : Value τ → Checked α} :
    (arrayOf check value).Refuses ↔ value = .revoked ∨
      ∃ elements, value.elements? = some elements ∧
        ∃ element ∈ elements, (check element).Refuses := by
  rw [arrayOf_eq]
  cases helements : value.elements? with
  | some elements =>
    have hvalue : value ≠ .revoked := by
      rintro rfl
      cases helements
    simp only [or_iff_right hvalue, Option.some.injEq, exists_eq_left']
    exact refuses_eachFrom
  | none =>
    simp only [reduceCtorEq, false_and, exists_const, or_false]
    exact refuses_of_mismatch "array" rfl

theorem refuses_objectWith {fields : Value τ → Checked α} :
    (objectWith fields value).Refuses ↔
      value = .revoked ∨ value.typeName = "object" ∧ (fields value).Refuses := by
  by_cases hrevoked : value = .revoked
  · subst hrevoked
    exact iff_of_true ⟨_, List.mem_singleton_self _, rfl⟩ (Or.inl rfl)
  · rw [or_iff_right hrevoked]
    unfold Refuses
    rw [issues_objectWith fields hrevoked]
    split
    · next hobject => rw [and_iff_right hobject]
    · next hobject =>
      simp only [List.mem_singleton, exists_eq_left, misfit_eq_refused_iff]
      exact iff_of_false hrevoked fun h => hobject h.1

/-- The error of a check that met no such value has one part for each issue. -/
theorem fault_of_not_refuses {what : String} {found : List Issue}
    (h : ¬ Refuses (.error found : Checked α)) :
    fault what found =
      { kind := .validation,
        message := "Invalid " ++ what ++ ": " ++ "; ".intercalate (found.map Issue.text) } := by
  refine if_neg ?_
  rw [List.any_eq_true]
  rintro ⟨issue, hmem, hrefused⟩
  exact h ⟨issue, hmem, of_decide_eq_true hrefused⟩

/-- What refuses to be looked at throws its own error. -/
theorem fault_of_refuses {what : String} {found : List Issue}
    (h : Refuses (.error found : Checked α)) : fault what found = Value.noAccess := by
  obtain ⟨issue, hmem, hrefused⟩ := h
  exact if_pos (List.any_eq_true.mpr ⟨issue, hmem, decide_eq_true hrefused⟩)

end Shape

end BoundedJobs
