import BoundedJobs.Proofs.History.Memory
import BoundedJobs.Proofs.History.Recording

/-!
# A history is a finite map

Whatever regular reports are recorded in a fresh history and whatever is forgotten in between, the
history behaves as the finite map from each identifier to the last report that was recorded under it
and not forgotten since.

* `History.Change`, `History.changed` — changes of a history, with what they answer;
* `Memory.changed` — the same changes of a finite map;
* `History.Shows` — a history that answers as a finite map;
* `History.Holds` — the invariant: the rows are those of a list that holds each entry once;
* `History.exists_latestFirst` — the rows in the order of the list, the latest first;
* `History.Holds.apply`, `History.Holds.changed` — one change keeps it, and so do all;
* `History.shows_changed` — the main theorem;
* `History.list_tooLarge` — limits from `2 ^ 63` on are refused.
-/

namespace BoundedJobs

namespace History

/-! ## Changes -/

/-- What is done to a history. -/
inductive Change where
  | record (report : Report)
  | dropBefore (moment : Number)
  | clear

/-- The history after a change, with the count that forgetting answers. -/
def Change.apply (h : History) : Change → Except Fault (Option Nat × History)
  | record report => do
    let h ← h.record (Draft.ofReport report)
    return (none, h)
  | dropBefore moment => do
    let (count, h) ← h.dropBefore (.number moment)
    return (some count, h)
  | clear => do
    let (count, h) ← h.clear
    return (some count, h)

/-- The history after changes, with all that they answer. -/
def changed (h : History) : List Change → Except Fault (List (Option Nat) × History)
  | [] => .ok ([], h)
  | change :: changes => do
    let (answer, h) ← change.apply h
    let (answers, h) ← h.changed changes
    return (answer :: answers, h)

/-- Every report that is recorded is a regular one. -/
def Change.IsRegular : Change → Prop
  | record report => report.IsRegular
  | _ => True

/-- Whether a report started before a moment. -/
def startsBefore (moment : Number) (r : Report) : Bool := Number.lt r.startedAt moment

/-- The same change of a finite map. -/
def Change.applyTo (m : Memory) : Change → Option Nat × Memory
  | record report => (none, m.record report)
  | dropBefore moment =>
    (some (m.keep (startsBefore moment)).ids.card, m.keep (!startsBefore moment ·))
  | clear => (some m.ids.card, .empty)

/-- The finite map after changes, with all that they answer. -/
def Memory.changed (m : Memory) : List Change → List (Option Nat) × Memory
  | [] => ([], m)
  | change :: changes =>
    let (answer, m) := change.applyTo m
    let (answers, m) := m.changed changes
    (answer :: answers, m)

/-- **A history that answers as a finite map** when it is asked for one run or the latest ones. -/
structure Shows (h : History) (m : Memory) : Prop where
  get : ∀ id, h.get (.text id) = .ok ((m.report? id).map Entry.ofReport)
  list : ∀ (settings : Settings) (limit : Number) (count : Nat),
    limit.int? = some (count : Int) → count < 2 ^ 63 →
      ∃ listed, h.list settings (.number limit) = .ok (listed.map Entry.ofReport) ∧
        m.Latest count listed

/-! ## The invariant -/

/-- **The rows of a history are those of a list that holds each entry once.** -/
structure Holds (h : History) (m : Memory) (reports : List Report) : Prop where
  rows : h.rows = reports.map Row.ofReport
  isOpen : h.isOpen = true
  regular : ∀ r ∈ reports, r.IsRegular
  listed : m.IsListedBy reports

variable {h : History} {m : Memory} {reports : List Report} {r : Report}

theorem holds_empty : Holds {} .empty [] :=
  ⟨rfl, rfl, List.forall_mem_nil _, Memory.isListedBy_empty⟩

/-! ## Comparing cells -/

/-- Cells for numbers are compared as the numbers are. -/
theorem Cell.lt_ofNumber (a b : Number) : (Cell.ofNumber a).lt (.ofNumber b) = Number.lt a b := by
  rcases Cell.eq_of_number a with ⟨i, rfl, ha⟩ | ha
  all_goals
    rcases Cell.eq_of_number b with ⟨j, rfl, hb⟩ | hb
    all_goals
      rw [ha, hb]
      rfl

theorem Cell.lt_empty (c : Cell) : c.lt .empty = false := by
  cases c <;> rfl

/-- Rows are compared with a moment as their reports are; one that is no number is after nothing. -/
theorem exists_moment (moment : Number) :
    ∃ bound, single (.number moment) = .ok bound ∧
      ∀ r, (Row.ofReport r).startedAt.lt bound.forNumbers = startsBefore moment r := by
  by_cases hmoment : moment = .nan
  · subst hmoment
    have hnan : ∀ n : Number, Number.lt n .nan = false := by
      intro n
      cases n <;> rfl
    exact ⟨.empty, single_of_fills fills_nan,
      fun r => (Cell.lt_empty _).trans (hnan r.startedAt).symm⟩
  · exact ⟨.real moment, single_of_fills (fills_number hmoment),
      fun r => Cell.lt_ofNumber r.startedAt moment⟩

/-- A whole number sets a limit if 64 bits hold it. -/
theorem limitOf_eq {limit : Number} {count : Nat} (hlimit : limit.int? = some (count : Int)) :
    limitOf (.number limit) = if count < 2 ^ 63 then .ok (some count) else .error badLimit := by
  rw [limitOf_number, hlimit]
  dsimp only
  rw [Int.natAbs_natCast, if_neg (Int.not_lt.mpr (Int.natCast_nonneg count)), Int.toNat_natCast]

/-! ## The latest rows first -/

/-- **The latest rows come first.** If the rows are those of the reports of some items, all of which
started at some time, then the items can be put into an order in which none started after the ones
before it, and this is the order of the rows. -/
theorem exists_latestFirst {α : Type} (report : α → Report) {items : List α}
    (rows : h.rows = items.map fun a => Row.ofReport (report a))
    (started : ∀ a ∈ items, (report a).startedAt.IsFinite) :
    ∃ ordered : List α, ordered.Perm items ∧
      (ordered.Pairwise fun a b => Number.le (report b).startedAt (report a).startedAt = true) ∧
      h.latestFirst = ordered.map fun a => Row.ofReport (report a) := by
  -- the order of rows is total among the rows of such reports only, so the items are sorted by keys
  unfold Number.IsFinite at started
  choose! key hkey using started
  let later (a b : α) : Bool := decide (key b ≤ key a)
  have hperm : (items.mergeSort later).Perm items := List.mergeSort_perm items later
  refine ⟨items.mergeSort later, hperm, ?_, ?_⟩
  · have hsorted : (items.mergeSort later).Pairwise fun a b => later a b = true := by
      refine List.pairwise_mergeSort (fun a b c hab hbc => ?_) (fun a b => ?_) items
      · exact decide_eq_true ((of_decide_eq_true hbc).trans (of_decide_eq_true hab))
      · rw [Bool.or_eq_true, decide_eq_true_eq, decide_eq_true_eq]
        exact le_total _ _
    refine hsorted.imp_of_mem fun {a b} ha hb hle => ?_
    rw [hkey a (hperm.mem_iff.mp ha), hkey b (hperm.mem_iff.mp hb)]
    exact Number.le_finite_iff.mpr (of_decide_eq_true hle)
  · unfold latestFirst
    rw [rows]
    refine (List.map_mergeSort fun a ha b hb => ?_).symm
    change decide (key b ≤ key a) = !(Cell.ofNumber (report a).startedAt).lt (.ofNumber _)
    rw [Cell.lt_ofNumber, hkey a ha, hkey b hb]
    change _ = !decide (key a < key b)
    rw [← decide_not, decide_eq_decide]
    exact not_lt.symm

/-! ## One change, and what a history answers -/

namespace Holds

theorem find?_eq (hold : h.Holds m reports) (id : String) :
    h.find? id = (m.report? id).map Row.ofReport := by
  unfold find?
  rw [hold.rows, List.find?_map, ← hold.listed.find?_eq id]
  rfl

theorem get (hold : h.Holds m reports) (id : String) :
    h.get (.text id) = .ok ((m.report? id).map Entry.ofReport) := by
  rw [get_eq hold.isOpen, hold.find?_eq]
  cases hreport : m.report? id with
  | none => rfl
  | some r =>
    have hmem : r ∈ reports := (hold.listed.mem_iff r).mpr (m.own id r hreport ▸ hreport)
    change some <$> (Row.ofReport r).entry = _
    rw [Row.entry_ofReport (hold.regular r hmem)]
    rfl

theorem list (hold : h.Holds m reports) (settings : Settings) {limit : Number} {count : Nat}
    (hlimit : limit.int? = some (count : Int)) (hcount : count < 2 ^ 63) :
    ∃ listed, h.list settings (.number limit) = .ok (listed.map Entry.ofReport) ∧
      m.Latest count listed := by
  have hstarted : ∀ r ∈ reports, r.startedAt.IsFinite := fun r hr =>
    let ⟨i, _, hi⟩ := (hold.regular r hr).startedAt
    ⟨i, hi⟩
  obtain ⟨ordered, hperm, hordered, hlatest⟩ := exists_latestFirst id hold.rows hstarted
  refine ⟨ordered.take count, ?_, (hold.listed.perm hperm).latest_take hordered count⟩
  rw [list_eq hold.isOpen (.inl rfl), limitOf_eq hlimit, if_pos hcount]
  change (h.latestFirst.take count).mapM Row.entry = _
  rw [hlatest, ← List.map_take]
  refine mapM_map_eq_ok fun r hr => Row.entry_ofReport (hold.regular r ?_)
  exact hperm.mem_iff.mp (List.mem_of_mem_take hr)

theorem shows (hold : h.Holds m reports) : h.Shows m := ⟨hold.get, fun s _ _ => hold.list s⟩

theorem record (hold : h.Holds m reports) (hr : r.IsRegular) :
    ∃ after, h.record (Draft.ofReport r) = .ok after ∧
      after.Holds (m.record r) (reports.filter (·.runId != r.runId) ++ [r]) := by
  refine ⟨h.insert (Row.ofReport r), record_of_isLossless hold.isOpen hr.isLossless, ?_,
    hold.isOpen, ?_, hold.listed.record r⟩
  · unfold insert
    dsimp only
    rw [hold.rows, List.filter_map, List.map_append]
    congr 2
  · intro a ha
    rcases List.mem_append.mp ha with ha | ha
    · exact hold.regular a (List.mem_filter.mp ha).1
    · rw [List.mem_singleton.mp ha]
      exact hr

theorem dropBefore (hold : h.Holds m reports) (moment : Number) :
    ∃ after, h.dropBefore (.number moment) =
        .ok ((m.keep (startsBefore moment)).ids.card, after) ∧
      after.Holds (m.keep (!startsBefore moment ·)) (reports.filter (!startsBefore moment ·)) := by
  -- a row is compared with the moment as its cell holds it
  obtain ⟨bound, hbound, hlt⟩ := exists_moment moment
  have hdropped : (h.rows.filter fun row => row.startedAt.lt bound.forNumbers) =
      (reports.filter (startsBefore moment)).map Row.ofReport := by
    rw [hold.rows, List.filter_map]
    exact congrArg _ (List.filter_congr fun r _ => hlt r)
  have hkept : (h.rows.filter fun row => !row.startedAt.lt bound.forNumbers) =
      (reports.filter (!startsBefore moment ·)).map Row.ofReport := by
    rw [hold.rows, List.filter_map]
    exact congrArg _ (List.filter_congr fun r _ => congrArg not (hlt r))
  refine ⟨{ h with rows := (reports.filter (!startsBefore moment ·)).map Row.ofReport }, ?_,
    rfl, hold.isOpen, fun r hr => hold.regular r (List.mem_filter.mp hr).1, hold.listed.keep _⟩
  unfold History.dropBefore
  rw [whileOpen_eq hold.isOpen, hbound]
  change Except.ok ((h.rows.filter fun row => row.startedAt.lt bound.forNumbers).length,
    { h with rows := h.rows.filter fun row => !row.startedAt.lt bound.forNumbers }) = _
  rw [hdropped, hkept, List.length_map, (hold.listed.keep _).card_eq]

theorem clear (hold : h.Holds m reports) :
    ∃ after, h.clear = .ok (m.ids.card, after) ∧ after.Holds .empty [] := by
  refine ⟨{ h with rows := [] }, ?_, rfl, hold.isOpen, List.forall_mem_nil _,
    Memory.isListedBy_empty⟩
  unfold History.clear
  rw [whileOpen_eq hold.isOpen, hold.rows, List.length_map, hold.listed.card_eq]

/-- **One change.** The history answers as the finite map does, and holds what it holds. -/
theorem apply (hold : h.Holds m reports) {change : Change} (hchange : change.IsRegular) :
    ∃ after later, change.apply h = .ok ((change.applyTo m).1, after) ∧
      after.Holds (change.applyTo m).2 later := by
  -- each change answers with what its own lemma says the map answers
  cases change with
  | record r =>
    obtain ⟨after, hafter, hlater⟩ := hold.record hchange
    refine ⟨after, _, ?_, hlater⟩
    change (h.record (Draft.ofReport r)).bind _ = _
    rw [hafter]
    rfl
  | dropBefore moment =>
    obtain ⟨after, hafter, hlater⟩ := hold.dropBefore moment
    refine ⟨after, _, ?_, hlater⟩
    change (h.dropBefore (.number moment)).bind _ = _
    rw [hafter]
    rfl
  | clear =>
    obtain ⟨after, hafter, hlater⟩ := hold.clear
    refine ⟨after, _, ?_, hlater⟩
    change h.clear.bind _ = _
    rw [hafter]
    rfl

/-- **All changes.** By induction on them, each keeping the invariant. -/
theorem changed (hold : h.Holds m reports) {changes : List Change}
    (hchanges : ∀ change ∈ changes, change.IsRegular) :
    ∃ after later, h.changed changes = .ok ((m.changed changes).1, after) ∧
      after.Holds (m.changed changes).2 later := by
  induction changes generalizing h m reports with
  | nil => exact ⟨h, reports, rfl, hold⟩
  | cons change changes ih =>
    obtain ⟨hfirst, hrest⟩ := List.forall_mem_cons.mp hchanges
    obtain ⟨between, kept, happly, hbetween⟩ := hold.apply hfirst
    obtain ⟨after, later, hchanged, hafter⟩ := ih hbetween hrest
    refine ⟨after, later, ?_, hafter⟩
    change (change.apply h).bind _ = _
    rw [happly]
    change (between.changed changes).bind _ = _
    rw [hchanged]
    rfl

end Holds

/-! ## Every run of changes -/

/-- **A history refines a finite map.** After any changes it has answered what the map answers, and
it shows what the map holds. -/
theorem shows_changed (changes : List Change) (hchanges : ∀ change ∈ changes, change.IsRegular) :
    ∃ h, ({} : History).changed changes = .ok ((Memory.empty.changed changes).1, h) ∧
      h.Shows (Memory.empty.changed changes).2 := by
  obtain ⟨h, reports, hchanged, hold⟩ := holds_empty.changed hchanges
  exact ⟨h, hchanged, hold.shows⟩

/-- A run of one task that failed. -/
def failedRun (runId : String) (startedAt finishedAt duration : Int) : Report where
  runId := runId
  maxParallel := .finite 2
  failures := ["no such file"]
  tasks := [⟨"lint", .failed, some "no such file", .finite 0, .finite duration⟩]
  startedAt := .finite startedAt
  finishedAt := .finite finishedAt
  durationMs := .finite duration

theorem failedRun_isRegular (runId : String) {i j k : Int} (hi : i.natAbs < Number.exactBound)
    (hj : j.natAbs < Number.exactBound) (hk : k.natAbs < Number.exactBound)
    (h : k = j - i) : (failedRun runId i j k).IsRegular := by
  have hduration : Number.finite k = .finite j - .finite i := by
    have hi' : Number.Whole i := Number.Whole.of_le hi.le
    have hj' : Number.Whole j := Number.Whole.of_le hj.le
    calc Number.finite k
        = Number.ofInt (j - i) := h ▸ (Number.Whole.of_le hk.le).symm
      _ = Number.ofInt j - Number.ofInt i := (hj'.sub hi').symm
      _ = .finite j - .finite i := congrArg₂ (· - ·) hj' hi'
  refine ⟨⟨2, by decide, rfl⟩, ⟨i, hi, rfl⟩, ⟨j, hj, rfl⟩, fun o ho => ?_, hduration⟩
  rw [List.mem_singleton.mp ho]
  exact ⟨⟨0, by decide, rfl⟩, ⟨k, hk, rfl⟩⟩

/-- One of two runs is recorded again with a later start before the older ones are forgotten. -/
def recordedAgain : List Change :=
  [.record (failedRun "first" 10 15 5), .record (failedRun "second" 20 30 10),
    .record (failedRun "first" 40 41 1), .dropBefore (.finite 40)]

theorem shows_changed_recordedAgain :
    (∀ change ∈ recordedAgain, change.IsRegular) ∧
      ∃ h, ({} : History).changed recordedAgain = .ok ([none, none, none, some 1], h) ∧
        h.Shows (Memory.empty.changed recordedAgain).2 := by
  have hregular : ∀ change ∈ recordedAgain, change.IsRegular := by
    intro change hchange
    simp only [recordedAgain, List.mem_cons, List.not_mem_nil, or_false] at hchange
    rcases hchange with rfl | rfl | rfl | rfl
    · exact failedRun_isRegular "first" (by decide) (by decide) (by decide) rfl
    · exact failedRun_isRegular "second" (by decide) (by decide) (by decide) rfl
    · exact failedRun_isRegular "first" (by decide) (by decide) (by decide) rfl
    · trivial
  have hanswers : (Memory.empty.changed recordedAgain).1 = [none, none, none, some 1] := by
    decide
  exact ⟨hregular, hanswers ▸ shows_changed recordedAgain hregular⟩

/-- **Limits have 64 bits.** A greater one is refused, whatever is kept. -/
theorem list_tooLarge (hopen : h.isOpen = true) (settings : Settings) {limit : Number}
    {count : Nat} (hlimit : limit.int? = some (count : Int)) (hcount : 2 ^ 63 ≤ count) :
    h.list settings (.number limit) = .error badLimit := by
  unfold History.list
  rw [whileOpen_eq hopen]
  change (limitOf (.number limit)).bind _ = _
  rw [limitOf_eq hlimit, if_neg (Nat.not_lt.mpr hcount)]
  rfl

theorem list_empty_hugeLimit :
    (Number.ofNat (2 ^ 63)).int? = some ((2 ^ 63 : Nat) : Int) ∧
      ({} : History).list default (.number (.ofNat (2 ^ 63))) = .error badLimit := by
  have hint : (Number.ofNat (2 ^ 63)).int? = some ((2 ^ 63 : Nat) : Int) :=
    (Number.Whole.two_pow (by decide)).int?
  exact ⟨hint, list_tooLarge rfl default hint (Nat.le_refl _)⟩

end History

end BoundedJobs
