import BoundedJobs.History.Basic
import Mathlib.Data.List.Forall2

/-!
# Values that fill one place each

A text fills one place of a statement and so does a number, so as many texts and numbers as a
statement has places fill them all.

* `History.Fills` — a value that fills one place with a cell;
* `History.bound_of_fills`, `History.single_of_fills` — all places of a statement, or its one place.
-/

namespace BoundedJobs

namespace History

/-- **A value that fills one place** of a statement with a cell. -/
def Fills (value : Value) (cell : Cell) : Prop :=
  ∀ (places : Nat) (f : Filling), f.cells.length < places →
    f.add places value = .ok { f with cells := f.cells ++ [cell] }

theorem put_of_cell {places : Nat} {f : Filling} {value : Value} {cell : Cell}
    (hcell : Cell.ofValue value = .ok cell) (hplaces : f.cells.length < places) :
    f.put places value = .ok { f with cells := f.cells ++ [cell] } := by
  unfold Filling.put
  rw [hcell]
  exact if_pos hplaces

theorem fills_text (s : String) : Fills (.text s) (.text s) :=
  fun _ _ hplaces => put_of_cell rfl hplaces

theorem fills_ofNumber (n : Number) : Fills (.number n) (if n = .nan then .empty else .real n) :=
  fun _ _ hplaces => put_of_cell rfl hplaces

theorem fills_number {n : Number} (hn : n ≠ .nan) : Fills (.number n) (.real n) := by
  have hfills := fills_ofNumber n
  rwa [if_neg hn] at hfills

theorem fills_nan : Fills (.number .nan) .empty := fills_ofNumber .nan

theorem foldlM_add {values : List Value} {cells : List Cell}
    (h : List.Forall₂ Fills values cells) {places : Nat} {f : Filling}
    (hplaces : f.cells.length + values.length ≤ places) :
    values.foldlM (Filling.add places) f = .ok { f with cells := f.cells ++ cells } := by
  induction h generalizing f with
  | nil => rw [List.append_nil]; rfl
  | @cons value cell values cells hvalue _ ih =>
    rw [List.length_cons] at hplaces
    rw [List.foldlM_cons, hvalue places f (by omega)]
    change values.foldlM (Filling.add places) { f with cells := f.cells ++ [cell] } = _
    rw [ih (by simp only [List.length_append, List.length_singleton]; omega)]
    simp only [List.append_assoc, List.singleton_append]

/-- **As many values as places.** Each fills its own. -/
theorem bound_of_fills {values : List Value} {cells : List Cell}
    (h : List.Forall₂ Fills values cells) : Filling.bound values.length values = .ok cells := by
  unfold Filling.bound
  rw [foldlM_add h (Nat.le_of_eq (Nat.zero_add _))]
  change (if cells.length < values.length then _ else _) = _
  exact if_neg (by rw [h.length_eq]; exact Nat.lt_irrefl _)

theorem single_of_fills {value : Value} {cell : Cell} (h : Fills value cell) :
    single value = .ok cell := by
  have hbound : Filling.bound 1 [value] = .ok [cell] := bound_of_fills (.cons h .nil)
  unfold single
  rw [hbound]
  rfl

end History

end BoundedJobs
