import BoundedJobs.Value.Text

/-!
# Values without a text

Any value can be put into a text, and some values refuse it. To ask such a value for its text raises
an error, and that error has nothing to do with what the text was wanted for: it is the engine's own
error for a wrong use, or what the conversion of the value throws.

* `Value.Mute` — the values that refuse to be a part of a text, and `Value.IsRefusal`, what they
  raise;
* `Value.mute_of_spelled`, `Value.exists_spelled_eq_error_iff` — these are the ones;
* `Value.Untold` — the failures that cannot be described: the mute ones but for symbols;
* `Value.exists_complaint_spelled_eq_error_iff` — these are the ones.
-/

namespace BoundedJobs

namespace Value

variable {value message : Value} {refusal : Fault}

/-- **A value that refuses to be a part of a text.** An array needs the texts of its items and an
error the text of its message; what a conversion gives may be mute again. -/
inductive Mute : Value → Prop where
  | symbol (description : String) : Mute (symbol description)
  | array {items : List Value} {item : Value} (mem : item ∈ items) (mute : Mute item) :
      Mute (array items)
  | object {fields : List (String × Value)} (own : ∃ field ∈ fields, field.1 = "toString") :
      Mute (object fields)
  | bare (fields : List (String × Value)) : Mute (bare fields)
  | messaged {message : Value} (mute : Mute message) : Mute (messaged message)
  | unreadable (reason : String) : Mute (unreadable reason)
  | tagged (label : String) : Mute (tagged label true)
  | unlabelled (reason : String) : Mute (unlabelled reason)
  | toObject {result : Value} (object : result.isObject = true) : Mute (convertible result)
  | toMute {result : Value} (mute : Mute result) : Mute (convertible result)
  | unprintable (reason : String) : Mute (unprintable reason)
  | revoked : Mute revoked

/-- The error of a value that was asked for its text: a wrong use, or what its conversion throws. -/
def IsRefusal (refusal : Fault) : Prop := refusal.kind = .type ∨ refusal.kind = .plain

/-- The text of an error is that of its message. -/
theorem spelled_messaged_eq_error :
    (messaged message).spelled = .error refusal ↔ message.spelled = .error refusal := by
  by_cases habsent : message = absent
  · -- an error leaves out an absent message, which has a text on its own
    subst habsent
    exact iff_of_false nofun nofun
  · rw [spelled]
    · cases message.spelled <;> simp [bind, Except.bind, pure, Except.pure]
    · exact habsent

/-- The items of an array are asked one after the other. -/
theorem spelledItems_cons_eq_error {item : Value} {items : List Value} :
    spelledItems (item :: items) = .error refusal ↔
      item.spelled = .error refusal ∨
        (∃ text, item.spelled = .ok text) ∧ spelledItems items = .error refusal := by
  by_cases hempty : item = absent ∨ item = null
  · -- an array leaves out the two empty values, which have texts on their own
    obtain rfl | rfl := hempty <;> cases hitems : spelledItems items <;>
      simp [spelledItems, spelled, hitems, bind, Except.bind, pure, Except.pure]
  · obtain ⟨habsent, hnull⟩ := not_or.mp hempty
    rw [spelledItems]
    · cases item.spelled <;> cases spelledItems items <;>
        simp [bind, Except.bind, pure, Except.pure]
    · exact habsent
    · exact hnull

/-- An array has no text if one of its items has none. -/
theorem spelled_array_eq_error {items : List Value} :
    (array items).spelled = .error refusal ↔ spelledItems items = .error refusal := by
  rw [spelled]
  cases spelledItems items <;> simp [bind, Except.bind, pure, Except.pure]

-- by recursion on the value: an array asks its items, an error its message, a conversion its result
mutual

/-- Only a mute value has no text, and it raises a refusal. -/
theorem mute_of_spelled {refusal : Fault} (value : Value) (h : value.spelled = .error refusal) :
    value.Mute ∧ IsRefusal refusal := by
  -- by recursion on the value: an array, an error with a message and an object with a method of
  -- its own raise what is raised inside them
  cases value with
  | symbol description =>
    obtain rfl := Except.error.inj h
    exact ⟨.symbol description, Or.inl rfl⟩
  | array items =>
    obtain ⟨item, hmem, hmute, hkind⟩ :=
      mute_of_spelledItems items (spelled_array_eq_error.mp h)
    exact ⟨.array hmem hmute, hkind⟩
  -- without a field for the conversion an object has the text of its label
  | object fields =>
    rw [spelled] at h
    split at h
    · next own =>
      obtain rfl := Except.error.inj h
      exact ⟨.object (by simpa using own), Or.inl rfl⟩
    · cases h
  | bare fields =>
    obtain rfl := Except.error.inj h
    exact ⟨.bare fields, Or.inl rfl⟩
  | messaged message =>
    obtain ⟨hmute, hkind⟩ := mute_of_spelled message (spelled_messaged_eq_error.mp h)
    exact ⟨.messaged hmute, hkind⟩
  | unreadable reason =>
    obtain rfl := Except.error.inj h
    exact ⟨.unreadable reason, Or.inr rfl⟩
  | tagged label throws =>
    rw [spelled] at h
    split at h
    · next hthrows =>
      obtain rfl := Except.error.inj h
      obtain rfl := hthrows
      exact ⟨.tagged label, Or.inr rfl⟩
    · cases h
  | unlabelled reason =>
    obtain rfl := Except.error.inj h
    exact ⟨.unlabelled reason, Or.inr rfl⟩
  | convertible result =>
    rw [spelled] at h
    split at h
    · next object =>
      obtain rfl := Except.error.inj h
      exact ⟨.toObject object, Or.inl rfl⟩
    · obtain ⟨hmute, hkind⟩ := mute_of_spelled result h
      exact ⟨.toMute hmute, hkind⟩
  | unprintable reason =>
    obtain rfl := Except.error.inj h
    exact ⟨.unprintable reason, Or.inr rfl⟩
  | revoked =>
    obtain rfl := Except.error.inj h
    exact ⟨.revoked, Or.inl rfl⟩
  | _ => cases h

/-- Only a mute item spoils the text of an array. -/
theorem mute_of_spelledItems {refusal : Fault} (items : List Value)
    (h : spelledItems items = .error refusal) :
    ∃ item ∈ items, item.Mute ∧ IsRefusal refusal := by
  cases items with
  | nil => cases h
  | cons item items =>
    rcases spelledItems_cons_eq_error.mp h with hitem | ⟨-, hitems⟩
    · exact ⟨item, List.mem_cons_self, mute_of_spelled item hitem⟩
    · obtain ⟨other, hmem, hother⟩ := mute_of_spelledItems items hitems
      exact ⟨other, List.mem_cons_of_mem _ hmem, hother⟩

end

theorem exists_spelledItems_eq_error {items : List Value} {item : Value} (mem : item ∈ items)
    (h : ∃ refusal, item.spelled = .error refusal) :
    ∃ refusal, spelledItems items = .error refusal := by
  induction items with
  | nil => cases mem
  | cons first others ih =>
    -- an item in front may refuse already, and then it answers instead
    cases hfirst : first.spelled with
    | error refusal => exact ⟨refusal, spelledItems_cons_eq_error.mpr (Or.inl hfirst)⟩
    | ok text =>
      rcases List.mem_cons.mp mem with rfl | hothers
      · obtain ⟨refusal, hrefusal⟩ := h
        exact ⟨refusal, spelledItems_cons_eq_error.mpr (Or.inl hrefusal)⟩
      · obtain ⟨refusal, hrefusal⟩ := ih hothers
        exact ⟨refusal, spelledItems_cons_eq_error.mpr (Or.inr ⟨⟨text, hfirst⟩, hrefusal⟩)⟩

/-- **What refuses to be a part of a text.** -/
theorem exists_spelled_eq_error_iff : (∃ refusal, value.spelled = .error refusal) ↔ value.Mute := by
  constructor
  · rintro ⟨refusal, h⟩
    exact (mute_of_spelled value h).1
  · intro mute
    induction mute with
    | symbol | bare | unreadable | tagged | unlabelled | unprintable | revoked => exact ⟨_, rfl⟩
    | array mem _ ih =>
      obtain ⟨refusal, h⟩ := exists_spelledItems_eq_error mem ih
      exact ⟨refusal, spelled_array_eq_error.mpr h⟩
    | object own => exact ⟨_, if_pos (by simpa using own)⟩
    | messaged _ ih =>
      obtain ⟨refusal, h⟩ := ih
      exact ⟨refusal, spelled_messaged_eq_error.mpr h⟩
    | toObject object => exact ⟨_, if_pos object⟩
    -- the conversion is asked first, and what it gives is mute itself
    | toMute _ ih =>
      obtain ⟨refusal, h⟩ := ih
      rw [spelled]
      split
      · exact ⟨_, rfl⟩
      · exact ⟨refusal, h⟩

/-! ## Failures -/

/-- **A failure that cannot be described**: it is mute. A symbol is described on its own, where it
has a text. -/
def Untold (failure : Value) : Prop := failure.Mute ∧ ∀ description, failure ≠ symbol description

/-- Unless it is a symbol, a failure without a message is described by its text and one with a
message by that of the message. -/
theorem complaint_spelled_eq_error (h : ∀ description, value ≠ symbol description) :
    value.complaint.bind spelled = .error refusal ↔ value.spelled = .error refusal := by
  have hplain : ∀ text? : Except Fault String,
      (text <$> text?).bind spelled = .error refusal ↔ text? = .error refusal := by
    intro text?
    cases text? with
    | ok written => exact iff_of_false nofun nofun
    | error other => exact Iff.rfl
  cases value with
  | symbol description => exact absurd rfl (h description)
  | fault => exact iff_of_false nofun nofun
  | messaged message => exact spelled_messaged_eq_error.symm
  | unreadable | revoked => exact Iff.rfl
  | _ => exact hplain _

/-- What an undescribable failure raises instead. -/
theorem untold_of_complaint_spelled (h : value.complaint.bind spelled = .error refusal) :
    value.Untold ∧ IsRefusal refusal := by
  have hsymbol : ∀ description, value ≠ symbol description := by
    rintro description rfl
    cases h
  obtain ⟨hmute, hkind⟩ := mute_of_spelled value ((complaint_spelled_eq_error hsymbol).mp h)
  exact ⟨⟨hmute, hsymbol⟩, hkind⟩

theorem exists_complaint_spelled_eq_error_iff :
    (∃ refusal, value.complaint.bind spelled = .error refusal) ↔ value.Untold := by
  constructor
  · rintro ⟨refusal, h⟩
    exact (untold_of_complaint_spelled h).1
  · rintro ⟨hmute, hsymbol⟩
    obtain ⟨refusal, h⟩ := exists_spelled_eq_error_iff.mpr hmute
    exact ⟨refusal, (complaint_spelled_eq_error hsymbol).mpr h⟩

end Value

end BoundedJobs
