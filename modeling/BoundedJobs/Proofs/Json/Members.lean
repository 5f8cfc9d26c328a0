import BoundedJobs.Shape

/-!
# The fields of what was read from a text

An object in a text may name a member twice. What is read of it has one field for each name, at the
place of the first member with this name and with the value of the last; so a field is looked up in
what was read as a member is in the tree.

* `Json.lookupLast_cons`, `Json.exists_mem_of_lookupLast` — the last entry under a name;
* `Value.lookupLast_put`, `Value.lookupLast_ofMembers` — fields are put in one by one;
* `Value.field_ofJson`, `Value.field_ofJson_eq_iff`, `Value.field_ofJson_eq_absent_iff` — a field is
  a member of the tree or absent;
* `Value.ofJson_ne_revoked`, `Value.field_ofJson_ne_revoked` — nothing in it refuses to be looked
  at;
* `Value.ofJson_eq_null_iff`, `Value.ofJson_eq_number_iff`, `Value.ofJson_eq_text_iff`,
  `Value.ofJson_eq_texts_iff` — what a value was read from.
-/

namespace BoundedJobs

variable {α τ : Type} [DecidableEq τ] {name : τ}

namespace Json

theorem exists_mem_of_lookupLast {entries : List (τ × α)} {a : α}
    (h : lookupLast name entries = some a) : ∃ entry ∈ entries, entry.2 = a := by
  obtain ⟨entry, hentry, rfl⟩ := Option.map_eq_some_iff.mp h
  exact ⟨entry, List.mem_reverse.mp (List.mem_of_find?_eq_some hentry), rfl⟩

/-- An entry counts if there is none with its name behind it. -/
theorem lookupLast_cons (entry : τ × α) (entries : List (τ × α)) :
    lookupLast name (entry :: entries) =
      (lookupLast name entries).or (if entry.1 = name then some entry.2 else none) := by
  unfold lookupLast
  rw [List.reverse_cons, List.find?_append]
  cases entries.reverse.find? (·.1 == name) with
  | some found => rfl
  | none => by_cases hname : entry.1 = name <;> simp [hname]

theorem lookupLast_eq_none {entries : List (τ × α)} (h : name ∉ entries.map (·.1)) :
    lookupLast name entries = none := by
  unfold lookupLast
  rw [Option.map_eq_none_iff, List.find?_eq_none]
  intro entry hentry hname
  exact h (beq_iff_eq.mp hname ▸ List.mem_map_of_mem (List.mem_reverse.mp hentry))

end Json

namespace Value

/-- A name that occurs keeps its place, and any other comes last. -/
theorem nodup_put {a : α} {entries : List (τ × α)} (nodup : (entries.map (·.1)).Nodup) :
    ((put name a entries).map (·.1)).Nodup := by
  -- which names there are afterwards does not depend on what they hold
  have hnames : (put name a entries).map (·.1) =
      if name ∈ entries.map (·.1) then entries.map (·.1) else entries.map (·.1) ++ [name] := by
    clear nodup
    induction entries with
    | nil => rfl
    | cons first others ih =>
      obtain ⟨other, old⟩ := first
      unfold put
      by_cases hother : other = name
      · subst hother
        simp
      · simp only [hother, Ne.symm hother, if_false, List.map_cons, ih, List.mem_cons, false_or]
        split <;> rfl
  rw [hnames]
  split
  · exact nodup
  · next hnew =>
    exact (List.perm_append_singleton name _).nodup_iff.mpr (List.nodup_cons.mpr ⟨hnew, nodup⟩)

/-- What was put in is found under its name; nothing else changes. -/
theorem lookupLast_put {other : τ} {a : α} {entries : List (τ × α)}
    (nodup : (entries.map (·.1)).Nodup) :
    Json.lookupLast name (put other a entries) =
      if other = name then some a else Json.lookupLast name entries := by
  induction entries with
  | nil => exact Json.lookupLast_cons (other, a) []
  | cons first others ih =>
    obtain ⟨held, old⟩ := first
    obtain ⟨hheld, hothers⟩ := List.nodup_cons.mp nodup
    unfold put
    by_cases hput : held = other
    · subst hput
      rw [if_pos rfl, Json.lookupLast_cons, Json.lookupLast_cons]
      by_cases hname : held = name
      · subst hname
        -- no other entry has this name, so the first is the last
        rw [Json.lookupLast_eq_none hheld, if_pos rfl, if_pos rfl]
        rfl
      · rw [if_neg hname, if_neg hname, if_neg hname]
    · rw [if_neg hput, Json.lookupLast_cons, Json.lookupLast_cons, ih hothers]
      split <;> rfl

/-- The fields of an object, given those in front: the last member with a name counts, and without
one the field in front. -/
theorem lookupLast_ofMembers {members : List (τ × Json τ)} {before : List (τ × Value τ)}
    (nodup : (before.map (·.1)).Nodup) :
    Json.lookupLast name (ofMembers before members) =
      ((Json.lookupLast name members).map ofJson).or (Json.lookupLast name before) := by
  induction members generalizing before with
  | nil => rfl
  | cons member members ih =>
    obtain ⟨other, tree⟩ := member
    rw [ofMembers, ih (nodup_put nodup), lookupLast_put nodup, Json.lookupLast_cons]
    cases Json.lookupLast name members with
    | some later => rfl
    | none => by_cases hname : other = name <;> simp [hname]

/-! ## What a value was read from -/

theorem ofJson_ne_revoked (tree : Json τ) : ofJson tree ≠ .revoked := by
  cases tree <;> exact nofun

theorem ofJson_ne_absent (tree : Json τ) : ofJson tree ≠ .absent := by
  cases tree <;> exact nofun

theorem ofJson_eq_null_iff {tree : Json τ} : ofJson tree = .null ↔ tree = .null := by
  constructor
  · intro h
    cases tree <;> cases h
    rfl
  · rintro rfl
    rfl

theorem ofJson_eq_number_iff {tree : Json τ} {n : Number} :
    ofJson tree = .number n ↔ tree = .number n := by
  constructor
  · intro h
    cases tree <;> cases h
    rfl
  · rintro rfl
    rfl

theorem ofJson_eq_text_iff {tree : Json τ} {s : τ} :
    ofJson tree = .text s ↔ tree = .string s := by
  constructor
  · intro h
    cases tree <;> cases h
    rfl
  · rintro rfl
    rfl

theorem ofItems_eq (items : List (Json τ)) : ofItems items = items.map ofJson := by
  induction items with
  | nil => rfl
  | cons item items ih => rw [ofItems, ih, List.map_cons]

theorem ofJson_eq_texts_iff {tree : Json τ} {texts : List τ} :
    ofJson tree = .array (texts.map .text) ↔ tree = .array (texts.map .string) := by
  constructor
  · intro h
    cases tree with
    | array items =>
      have hitems := Value.array.inj h
      rw [ofItems_eq] at hitems
      congr 1
      clear h
      -- every item is the text that was read from it
      induction texts generalizing items with
      | nil => exact List.map_eq_nil_iff.mp hitems
      | cons s texts ih =>
        obtain ⟨item, items, rfl, hitem, hothers⟩ := List.map_eq_cons_iff.mp hitems
        rw [ofJson_eq_text_iff.mp hitem, ih _ hothers, List.map_cons]
    | _ => cases h
  · rintro rfl
    change Value.array (ofItems _) = _
    rw [ofItems_eq, List.map_map]
    rfl

/-! ## Fields -/

variable [Wording τ] {name : String}

/-- **A field of what was read** is a member of the tree, or it is absent. -/
theorem field_ofJson (name : String) (tree : Json τ) :
    (ofJson tree).field name =
      ((tree.member? (Wording.ofString name)).map ofJson).getD .absent := by
  cases tree with
  | object members =>
    have hfields : Json.lookupLast (Wording.ofString name) (ofMembers [] members) =
        ((Json.lookupLast (Wording.ofString name) members).map ofJson).or none :=
      lookupLast_ofMembers (by exact List.nodup_nil)
    change (Json.lookupLast (Wording.ofString name) (ofMembers [] members)).getD .absent = _
    rw [hfields, Option.or_none]
    rfl
  | _ => rfl

/-- No field of what was read refuses to be looked at. -/
theorem field_ofJson_ne_revoked (name : String) (tree : Json τ) :
    (ofJson tree).field name ≠ .revoked := by
  rw [field_ofJson]
  cases tree.member? (Wording.ofString name) with
  | none => exact nofun
  | some member => exact ofJson_ne_revoked member

/-- A field is absent if there is no member for it. -/
theorem field_ofJson_eq_absent_iff {tree : Json τ} :
    (ofJson tree).field name = .absent ↔ tree.member? (Wording.ofString name) = none := by
  rw [field_ofJson]
  cases tree.member? (Wording.ofString name) with
  | none => exact iff_of_true rfl rfl
  | some member => exact iff_of_false (ofJson_ne_absent member) nofun

/-- A field with a value that is read from one tree only. -/
theorem field_ofJson_eq_iff {tree member : Json τ} {value : Value τ}
    (hread : ∀ other, ofJson other = value ↔ other = member) :
    (ofJson tree).field name = value ↔ tree.member? (Wording.ofString name) = some member := by
  have hvalue : ofJson member = value := (hread member).mpr rfl
  rw [field_ofJson]
  cases tree.member? (Wording.ofString name) with
  | none => exact iff_of_false (hvalue ▸ (ofJson_ne_absent member).symm) nofun
  | some other => exact (hread other).trans Option.some_inj.symm

/-- A value that shows a number as a field is an object with a member for it. -/
theorem exists_member_of_field {tree : Json τ} {n : Number}
    (h : (ofJson tree).field name = .number n) :
    ∃ members, tree = .object members ∧ ∃ member ∈ members, member.2 = .number n := by
  have hmember := (field_ofJson_eq_iff fun _ => ofJson_eq_number_iff).mp h
  cases tree with
  | object members => exact ⟨members, rfl, Json.exists_mem_of_lookupLast hmember⟩
  | _ => cases hmember

end Value

end BoundedJobs
