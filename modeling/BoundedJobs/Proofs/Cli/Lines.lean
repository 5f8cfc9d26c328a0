import BoundedJobs.Cli.Program
import Mathlib.Tactic.SplitIfs

/-!
# Texts of a single line

A text is one line if nothing in it ends a line. Numbers, moments and the names of reports are
spelled with digits, a few letters and marks, so what is put together from them is one line; and
lines that are printed below each other can be counted by their ends.

* `IsLine` — a text of a single line, and `IsLine.append`, that such texts may be put together;
* `Number.isLine_text`, `Timestamp.isLine_text`, `State.isLine_reportId` — spelled by digits;
* `Cli.count_asLines` — as many ends of lines as lines.
-/

namespace BoundedJobs

/-- **A text of a single line**: nothing in it ends a line. -/
def IsLine (s : String) : Prop := '\n' ∉ s.toList

instance (s : String) : Decidable (IsLine s) := inferInstanceAs (Decidable (¬ _ ∈ s.toList))

variable {s t : String} {chars : List Char}

theorem IsLine.append (hs : IsLine s) (ht : IsLine t) : IsLine (s ++ t) := by
  unfold IsLine
  rw [String.toList_append, List.mem_append, not_or]
  exact ⟨hs, ht⟩

theorem isLine_ofList : IsLine (String.ofList chars) ↔ '\n' ∉ chars := by
  unfold IsLine
  rw [String.toList_ofList]

/-! ## Texts that are spelled by digits -/

theorem notMem_toDigits (n : Nat) : '\n' ∉ Nat.toDigits 10 n := fun h =>
  absurd (Nat.isDigit_of_mem_toDigits (by decide) (by decide) h) (by decide)

theorem notMem_zeros (count : Nat) : '\n' ∉ List.replicate count '0' := fun h =>
  absurd (List.eq_of_mem_replicate h) (by decide)

theorem isLine_toString (n : Nat) : IsLine (toString n) := by
  rw [Nat.toString_eq_ofList_toDigits, isLine_ofList]
  exact notMem_toDigits n

/-- Zeros and digits. -/
theorem isLine_filled (count n : Nat) :
    IsLine (String.ofList (List.replicate count '0' ++ Nat.toDigits 10 n)) := by
  rw [isLine_ofList, List.mem_append, not_or]
  exact ⟨notMem_zeros count, notMem_toDigits n⟩

theorem State.isLine_reportId (number : Nat) : IsLine (State.reportId number) :=
  .append (by decide) (isLine_filled _ number)

namespace Number

theorem isLine_layout (d : Decimal) : IsLine (layout d) := by
  have hdigits := notMem_toDigits d.digits
  have htake (n : Nat) : '\n' ∉ (Nat.toDigits 10 d.digits).take n :=
    fun h => hdigits (List.mem_of_mem_take h)
  have hdrop (n : Nat) : '\n' ∉ (Nat.toDigits 10 d.digits).drop n :=
    fun h => hdigits (List.mem_of_mem_drop h)
  unfold layout
  dsimp only
  split_ifs
  all_goals
    rw [isLine_ofList]
    simp [-List.drop_one, hdigits, htake, hdrop, notMem_toDigits]

theorem isLine_text (n : Number) : IsLine n.text := by
  have hpositive (q : Rat) : IsLine (positiveText q) := by
    unfold positiveText digitsText
    split
    · exact isLine_ofList.mpr (notMem_toDigits _)
    · exact isLine_layout _
  cases n with
  | nan => decide
  | infinity negative => cases negative <;> decide
  | finite q =>
    unfold text
    dsimp only
    split_ifs
    · decide
    · exact .append (by decide) (hpositive _)
    · exact hpositive q

end Number

namespace Timestamp

theorem isLine_padded (width n : Nat) : IsLine (padded width n) := isLine_filled _ n

theorem isLine_yearText (year : Int) : IsLine (yearText year) := by
  unfold yearText
  split_ifs
  · exact isLine_padded _ _
  · exact .append (by decide) (isLine_padded _ _)
  · exact .append (by decide) (isLine_padded _ _)

theorem isLine_text {moment : Number} {written : String} (h : text moment = .ok written) :
    IsLine written := by
  unfold text at h
  split at h
  · obtain rfl := Except.ok.inj h
    have hdash : IsLine "-" := by decide
    have hcolon : IsLine ":" := by decide
    have htime : IsLine "T" := by decide
    have hpoint : IsLine "." := by decide
    have hzone : IsLine "Z" := by decide
    exact isLine_yearText _ |>.append hdash |>.append (isLine_padded 2 _) |>.append hdash
      |>.append (isLine_padded 2 _) |>.append htime |>.append (isLine_padded 2 _)
      |>.append hcolon |>.append (isLine_padded 2 _) |>.append hcolon
      |>.append (isLine_padded 2 _) |>.append hpoint |>.append (isLine_padded 3 _)
      |>.append hzone
  · cases h

end Timestamp

namespace Cli

/-- **Lines that are printed below each other** are as many as there are ends of lines. -/
theorem count_asLines {lines : List String} (h : ∀ line ∈ lines, IsLine line) :
    (asLines lines).toList.count '\n' = lines.length := by
  induction lines with
  | nil => rfl
  | cons line lines ih =>
    obtain ⟨hfirst, hothers⟩ := List.forall_mem_cons.mp h
    unfold asLines at ih ⊢
    rw [List.map_cons, String.join_cons, String.toList_append, List.count_append, ih hothers,
      asLine, String.toList_append, List.count_append, List.count_eq_zero.mpr hfirst,
      List.length_cons, Nat.zero_add, Nat.add_comm]
    rfl

end Cli

end BoundedJobs
