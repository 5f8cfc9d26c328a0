import BoundedJobs.History.Row
import Mathlib.Data.Finset.Card

/-!
# Finite maps of reports

What a history means is a finite map from identifiers to reports. A change replaces one entry, drops
the entries that started before a moment, or drops all of them.

* `Memory` — a finite map in which each report stands under its own identifier;
* `Memory.record`, `Memory.keep`, `Memory.empty` — the changes;
* `Memory.Latest` — a list of the latest entries;
* `Memory.IsListedBy` — a list that holds each entry once, in any order;
* `Memory.latest_take` — the front of such a list holds the latest entries if it is in order.
-/

namespace BoundedJobs

namespace History

/-- **A finite map from identifiers to reports.** -/
structure Memory where
  report? : String → Option Report
  ids : Finset String
  mem_ids : ∀ id, id ∈ ids ↔ (report? id).isSome
  /-- Each report stands under its own identifier. -/
  own : ∀ id r, report? id = some r → r.runId = id

namespace Memory

/-! ## Changes -/

/-- The map without entries. -/
def empty : Memory where
  report? _ := none
  ids := ∅
  mem_ids _ := by simp
  own _ _ h := by cases h

/-- The map with a report under its identifier, in place of an earlier one. -/
def record (m : Memory) (r : Report) : Memory where
  report? id := if id = r.runId then some r else m.report? id
  ids := insert r.runId m.ids
  mem_ids id := by
    by_cases h : id = r.runId
    · simp [h]
    · simp [h, m.mem_ids]
  own id other h := by
    split at h
    · next hid =>
      cases h
      exact hid.symm
    · exact m.own id other h

/-- The entries with a property. -/
def keep (m : Memory) (p : Report → Bool) : Memory where
  report? id := (m.report? id).filter p
  ids := m.ids.filter fun id => (m.report? id).any p
  mem_ids id := by
    rw [Finset.mem_filter, m.mem_ids]
    cases m.report? id with
    | none => simp
    | some r => by_cases hp : p r <;> simp [hp]
  own id r h := m.own id r (Option.filter_eq_some_iff.mp h).1

/-! ## Listing the latest entries -/

/-- **The latest entries of a map**, as many as there are up to `count`: none that is left out
started after one that is listed. -/
structure Latest (m : Memory) (count : Nat) (listed : List Report) : Prop where
  length : listed.length = min count m.ids.card
  kept : ∀ r ∈ listed, m.report? r.runId = some r
  distinct : listed.Pairwise fun a b => a.runId ≠ b.runId
  ordered : listed.Pairwise fun a b => Number.le b.startedAt a.startedAt
  latest : ∀ r ∈ listed, ∀ id other, m.report? id = some other → other ∉ listed →
    Number.le other.startedAt r.startedAt

/-- **A list that holds each entry once.** -/
structure IsListedBy (m : Memory) (reports : List Report) : Prop where
  distinct : reports.Pairwise fun a b => a.runId ≠ b.runId
  mem_iff : ∀ r, r ∈ reports ↔ m.report? r.runId = some r

variable {m : Memory} {reports others : List Report}

theorem isListedBy_empty : empty.IsListedBy [] := ⟨.nil, fun _ => by simp [empty]⟩

namespace IsListedBy

theorem perm (h : m.IsListedBy reports) (hperm : others.Perm reports) : m.IsListedBy others where
  distinct := h.distinct.perm hperm.symm fun hne => hne.symm
  mem_iff r := hperm.mem_iff.trans (h.mem_iff r)

theorem card_eq (h : m.IsListedBy reports) : m.ids.card = reports.length := by
  have hnodup : (reports.map (·.runId)).Nodup := List.pairwise_map.mpr h.distinct
  -- no identifier stands twice in the list, so its entries are counted by their identifiers
  have hids : m.ids = (reports.map (·.runId)).toFinset := by
    ext id
    rw [m.mem_ids, List.mem_toFinset, List.mem_map]
    constructor
    · intro hsome
      obtain ⟨r, hr⟩ := Option.isSome_iff_exists.mp hsome
      have hown := m.own id r hr
      exact ⟨r, (h.mem_iff r).mpr (hown ▸ hr), hown⟩
    · rintro ⟨r, hr, rfl⟩
      rw [(h.mem_iff r).mp hr]
      rfl
  rw [hids, List.toFinset_card_of_nodup hnodup, List.length_map]

/-- What stands under an identifier is the report in the list that has it. -/
theorem find?_eq (h : m.IsListedBy reports) (id : String) :
    reports.find? (·.runId == id) = m.report? id := by
  cases hfound : reports.find? (·.runId == id) with
  | some r =>
    have hid : r.runId = id := by simpa using List.find?_some hfound
    exact (hid ▸ (h.mem_iff r).mp (List.mem_of_find?_eq_some hfound)).symm
  | none =>
    cases hreport : m.report? id with
    | none => rfl
    | some r =>
      have hown := m.own id r hreport
      have hmem := (h.mem_iff r).mpr (hown ▸ hreport)
      exact absurd (beq_iff_eq.mpr hown) (List.find?_eq_none.mp hfound r hmem)

/-- A new report stands behind the others, and an earlier one with its identifier is gone. -/
theorem record (h : m.IsListedBy reports) (r : Report) :
    (m.record r).IsListedBy (reports.filter (·.runId != r.runId) ++ [r]) where
  distinct := by
    rw [List.pairwise_append]
    refine ⟨h.distinct.filter _, List.pairwise_singleton _ _, ?_⟩
    intro a ha b hb
    rw [List.mem_singleton.mp hb]
    exact bne_iff_ne.mp (List.mem_filter.mp ha).2
  mem_iff a := by
    rw [List.mem_append, List.mem_filter, List.mem_singleton, bne_iff_ne]
    change _ ↔ (if a.runId = r.runId then some r else m.report? a.runId) = some a
    by_cases ha : a.runId = r.runId
    · -- an earlier report with the identifier is no entry any more
      rw [if_pos ha]
      exact ⟨fun hmem => hmem.elim (absurd ha ·.2) fun heq => congrArg some heq.symm,
        fun heq => .inr (Option.some.inj heq).symm⟩
    · rw [if_neg ha, ← h.mem_iff a]
      exact ⟨fun hmem => hmem.elim (·.1) fun heq => absurd (congrArg Report.runId heq) ha,
        fun hmem => .inl ⟨hmem, ha⟩⟩

theorem keep (h : m.IsListedBy reports) (p : Report → Bool) :
    (m.keep p).IsListedBy (reports.filter p) where
  distinct := h.distinct.filter _
  mem_iff a := by
    rw [List.mem_filter, h.mem_iff a]
    exact Option.filter_eq_some_iff.symm

/-- **The front of a list in order** holds the latest entries. -/
theorem latest_take (h : m.IsListedBy reports)
    (hordered : reports.Pairwise fun a b => Number.le b.startedAt a.startedAt) (count : Nat) :
    m.Latest count (reports.take count) where
  length := by rw [List.length_take, h.card_eq]
  kept r hr := (h.mem_iff r).mp (List.mem_of_mem_take hr)
  distinct := h.distinct.sublist (List.take_sublist _ _)
  ordered := hordered.sublist (List.take_sublist _ _)
  latest r hr id other hother hout := by
    have hown := m.own id other hother
    have hmem : other ∈ reports.take count ++ reports.drop count := by
      rw [List.take_append_drop]
      exact (h.mem_iff other).mpr (hown ▸ hother)
    -- an entry that is left out stands in the rest of the list
    rw [← List.take_append_drop count reports] at hordered
    obtain ⟨-, -, hacross⟩ := List.pairwise_append.mp hordered
    exact hacross r hr other ((List.mem_append.mp hmem).resolve_left hout)

end IsListedBy

end Memory

end History

end BoundedJobs
