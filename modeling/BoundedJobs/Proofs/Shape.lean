import BoundedJobs.Shape
import Mathlib.Data.List.Forall2

/-!
# Checks that succeed

A check that is put together from others succeeds exactly if all of them do, and then it gives what
they give. A check of a value of a given form is read off that form.

* `Shape.demand_eq_ok_iff`, `Shape.Checked.both_eq_ok_iff`, `Shape.Checked.map_eq_ok_iff`,
  `Shape.Checked.eachFrom_eq_ok_iff`, `Shape.field_eq_ok_iff`, `Shape.fieldOr_eq_ok_iff` — checks
  put together;
* `Shape.objectWith_eq_ok_iff`, `Shape.number_eq_ok_iff`, `Shape.integer_eq_ok_iff`,
  `Shape.string_eq_ok_iff`, `Shape.arrayOf_eq_ok_iff`, `Shape.arrayOf_string_eq_ok_iff` — what a
  value that passes looks like.
-/

namespace BoundedJobs

namespace Shape

variable {α β τ : Type} {name : String} {value : Value τ} {a : α} {b : β}

theorem demand_eq_ok_iff {what : String} {checked : Checked α} :
    demand what checked = .ok a ↔ checked = .ok a := by
  cases checked <;> simp [demand]

namespace Checked

theorem both_eq_ok_iff {first : Checked α} {second : Checked β} :
    both first second = .ok (a, b) ↔ first = .ok a ∧ second = .ok b := by
  cases first <;> cases second <;> simp [both]

theorem map_eq_ok_iff {checked : Checked α} {f : α → β} :
    checked.map f = .ok b ↔ ∃ a, checked = .ok a ∧ f a = b := by
  cases checked <;> simp [Except.map]

theorem under_eq_ok_iff {step : String} {checked : Checked α} :
    under step checked = .ok a ↔ checked = .ok a := by
  cases checked <;> simp [under]

/-- Each item gives its own result, whatever number the first item has. -/
theorem eachFrom_eq_ok_iff {check : Value τ → Checked α} {start : Nat} {items : List (Value τ)}
    {results : List α} :
    eachFrom check start items = .ok results ↔
      List.Forall₂ (fun item result => check item = .ok result) items results := by
  -- the numbers of the items only tell where an issue is
  induction items generalizing start results with
  | nil =>
    rw [List.forall₂_nil_left_iff]
    exact ⟨fun h => (Except.ok.inj h).symm, fun h => h ▸ rfl⟩
  | cons item items ih =>
    rw [List.forall₂_cons_left_iff]
    unfold eachFrom
    constructor
    · intro h
      split at h
      · next first others hboth =>
        obtain ⟨hfirst, hothers⟩ := both_eq_ok_iff.mp hboth
        exact ⟨first, others, under_eq_ok_iff.mp hfirst, ih.mp hothers, (Except.ok.inj h).symm⟩
      · cases h
    · rintro ⟨first, others, hfirst, hothers, rfl⟩
      rw [both_eq_ok_iff.mpr ⟨under_eq_ok_iff.mpr hfirst, ih.mpr hothers⟩]

end Checked

section

variable [DecidableEq τ] [Wording τ]

theorem field_eq_ok_iff {check : Value τ → Checked α} :
    field name check value = .ok a ↔ check (value.field name) = .ok a :=
  Checked.under_eq_ok_iff

/-- A field that may be missing is missing or has a value that passes. What is missing does not pass
by itself. -/
theorem fieldOr_eq_ok_iff {default : α} {check : Value τ → Checked α}
    (required : ∀ a, check .absent ≠ .ok a) :
    fieldOr name default check value = .ok a ↔
      value.field name = .absent ∧ a = default ∨ check (value.field name) = .ok a := by
  unfold fieldOr
  split
  · next habsent =>
    rw [habsent, or_iff_left (required a), and_iff_right rfl, Except.ok.injEq, eq_comm]
  · next given hgiven =>
    rw [Checked.under_eq_ok_iff, or_iff_right fun h => hgiven h.1]

end

theorem mismatch_ne_ok {expected : String} : mismatch expected value ≠ .ok a := by
  intro h
  unfold mismatch at h
  split at h <;> cases h

/-- What passes as an object is one, and its fields pass. -/
theorem objectWith_eq_ok_iff {fields : Value τ → Checked α} :
    objectWith fields value = .ok a ↔
      value ≠ .revoked ∧ value.typeName = "object" ∧ fields value = .ok a := by
  unfold objectWith
  split
  · exact iff_of_false nofun fun h => h.1 rfl
  · next hrevoked =>
    rw [and_iff_right hrevoked]
    split
    · next hobject => rw [and_iff_right hobject]
    · next hobject => exact iff_of_false mismatch_ne_ok fun h => hobject h.1

/-- What passes as a number is one. -/
theorem number_eq_ok_iff {n : Number} : number value = .ok n ↔ value = .number n ∧ n ≠ .nan := by
  constructor
  · intro h
    unfold number at h
    split at h
    · split at h
      · exact absurd h mismatch_ne_ok
      · next hnan =>
        cases h
        exact ⟨rfl, hnan⟩
    · exact absurd h mismatch_ne_ok
  · rintro ⟨rfl, hnan⟩
    exact if_neg hnan

theorem eq_number_of_ok {n : Number} (h : number value = .ok n) : value = .number n :=
  (number_eq_ok_iff.mp h).1

/-- What passes as a whole number is a number that is one. -/
theorem integer_eq_ok_iff {i : Int} :
    integer value = .ok i ↔ ∃ n, value = .number n ∧ n.int? = some i := by
  constructor
  · intro h
    unfold integer at h
    cases hn : number value with
    | error issues =>
      rw [hn] at h
      cases h
    | ok n =>
      rw [hn] at h
      dsimp only [bind, Except.bind] at h
      refine ⟨n, eq_number_of_ok hn, ?_⟩
      split at h
      · next hint =>
        cases h
        exact hint
      · cases h
  · rintro ⟨n, rfl, hint⟩
    -- what is whole is a number, so the check for numbers lets it pass
    have hn : number (.number n : Value τ) = .ok n := if_neg (by rintro rfl; cases hint)
    unfold integer
    rw [hn]
    dsimp only [bind, Except.bind]
    rw [hint]
    rfl

theorem string_eq_ok_iff {text : τ} : string value = .ok text ↔ value = .text text := by
  constructor
  · intro h
    unfold string at h
    split at h
    · cases h
      rfl
    · exact absurd h mismatch_ne_ok
  · rintro rfl
    rfl

theorem arrayOf_eq_ok_iff {check : Value τ → Checked α} {items : List (Value τ)}
    {results : List α} :
    arrayOf check (.array items) = .ok results ↔
      List.Forall₂ (fun item result => check item = .ok result) items results :=
  Checked.eachFrom_eq_ok_iff

/-- What passes as an array of texts holds these texts. -/
theorem arrayOf_string_eq_ok_iff {texts : List τ} :
    arrayOf string value = .ok texts ↔ value = .array (texts.map .text) := by
  have htexts : ∀ items : List (Value τ),
      List.Forall₂ (fun item text => string item = .ok text) items texts ↔
        items = texts.map .text := by
    intro items
    simp only [string_eq_ok_iff]
    rw [← List.forall₂_map_right_iff (R := Eq), List.forall₂_eq_eq_eq]
  constructor
  · intro h
    unfold arrayOf at h
    split at h
    · exact congrArg Value.array ((htexts _).mp (Checked.eachFrom_eq_ok_iff.mp h))
    · exact absurd h mismatch_ne_ok
  · rintro rfl
    exact arrayOf_eq_ok_iff.mpr ((htexts _).mpr rfl)

end Shape

end BoundedJobs
