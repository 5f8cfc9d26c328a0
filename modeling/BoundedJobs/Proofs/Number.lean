import BoundedJobs.Timestamp.Basic

/-!
# Whole numbers

Whole numbers of no more than 53 binary digits are numbers of their own, so sums, differences and
comparisons of such numbers are those of the whole numbers.

* `Number.Whole` — a whole number is its own nearest number. All those of 53 digits are
  (`Number.Whole.of_le`), and some greater ones;
* `Number.Whole.add`, `Number.Whole.sub`, `Number.Whole.lt` — the operations on such numbers. A sum
  or difference that has more digits is the number nearest to it.
-/

namespace BoundedJobs

namespace Number

variable {i j : Int}

/-- A whole number is its own nearest number. -/
def Whole (i : Int) : Prop := ofInt i = finite i

theorem Whole.of_le (h : i.natAbs ≤ exactBound) : Whole i := by
  change nearest (i : Rat) = finite i
  unfold nearest
  exact if_pos ⟨Rat.den_intCast i, by rwa [Rat.num_intCast]⟩

theorem Whole.add (hi : Whole i) (hj : Whole j) : ofInt i + ofInt j = ofInt (i + j) := by
  rw [hi, hj]
  change nearest ((i : Rat) + (j : Rat)) = nearest ((i + j : Int) : Rat)
  rw [Rat.intCast_add]

theorem Whole.sub (hi : Whole i) (hj : Whole j) : ofInt i - ofInt j = ofInt (i - j) := by
  rw [hi, hj]
  change nearest ((i : Rat) + -(j : Rat)) = nearest ((i - j : Int) : Rat)
  rw [Rat.intCast_sub, Rat.sub_eq_add_neg]

theorem Whole.lt (hi : Whole i) (hj : Whole j) : lt (ofInt i) (ofInt j) = decide (i < j) := by
  rw [hi, hj]
  change decide ((i : Rat) < (j : Rat)) = decide (i < j)
  exact decide_eq_decide.mpr Rat.intCast_lt_intCast

theorem Whole.le (hi : Whole i) (hj : Whole j) (h : i ≤ j) : le (ofInt i) (ofInt j) = true := by
  unfold Number.le
  rw [hi.lt hj]
  rcases Int.lt_or_eq_of_le h with hlt | rfl
  · rw [decide_eq_true hlt, Bool.true_or]
  · rw [hi]
    simp

theorem Whole.max (hi : Whole i) (hj : Whole j) (h : i ≤ j) :
    Number.max (ofInt i) (ofInt j) = ofInt j := by
  unfold Number.max
  rw [hi.lt hj]
  rcases Int.lt_or_eq_of_le h with hlt | rfl
  · rw [decide_eq_true hlt, if_neg, if_pos rfl]
    rw [hi, hj]
    simp
  · rw [ite_self, if_neg]
    rw [hi]
    simp

end Number

end BoundedJobs
