import BoundedJobs.Proofs.Number
import Mathlib.Algebra.Group.Nat.Defs
import Mathlib.Data.Nat.Log

/-!
# Rounding keeps the order

A whole number of more than 53 binary digits lies between two multiples of a power of two, and the
number nearest to it is one of them. Which power it is grows with the whole number, so the greater
of two whole numbers never has the lesser nearest number (`Number.ofNat_mono`).

* `Number.floor_le_roundQuotient`, `Number.roundQuotient_le` — a quotient is rounded to one of its
  two neighbours;
* `Number.rounded` — the multiple that is nearest to a whole number;
* `Number.rounded_mono` — within one power of two the multiples are those of the same grid, and the
  power of two itself lies between two whole numbers whose grids differ.
-/

namespace BoundedJobs

namespace Number

variable {a b n num den k : Nat}

/-! ## Quotients -/

theorem floor_le_roundQuotient (num den : Nat) : num / den ≤ roundQuotient num den := by
  unfold roundQuotient
  dsimp only
  split
  · exact Nat.le_refl _
  · split
    · exact Nat.le_succ _
    · split
      · exact Nat.le_refl _
      · exact Nat.le_succ _

theorem roundQuotient_le (num den : Nat) : roundQuotient num den ≤ num / den + 1 := by
  unfold roundQuotient
  dsimp only
  split
  · exact Nat.le_succ _
  · split
    · exact Nat.le_refl _
    · split
      · exact Nat.le_succ _
      · exact Nat.le_refl _

/-- Of two quotients with the same divisor the greater is not rounded to less. -/
theorem roundQuotient_mono (h : a ≤ b) : roundQuotient a den ≤ roundQuotient b den := by
  rcases Nat.lt_or_eq_of_le (Nat.div_le_div_right h : a / den ≤ b / den) with hlt | heq
  · calc roundQuotient a den
        ≤ a / den + 1 := roundQuotient_le a den
      _ ≤ b / den := hlt
      _ ≤ roundQuotient b den := floor_le_roundQuotient b den
  · -- with the same floor, the rests decide
    have hrest : a % den ≤ b % den := by
      have ha := Nat.div_add_mod a den
      have hb := Nat.div_add_mod b den
      rw [heq] at ha
      omega
    unfold roundQuotient
    rw [heq]
    dsimp only
    split_ifs <;> omega

/-! ## Whole numbers -/

/-- The multiple of a power of two that is nearest to a whole number. The power leaves 53 digits. -/
def rounded (n : Nat) : Nat :=
  roundQuotient n (2 ^ (n.log2 - 52)) * 2 ^ (n.log2 - 52)

theorem binaryExponent_one (h : n ≠ 0) : binaryExponent n 1 = n.log2 := by
  have hguess : ((n.log2 : Int) - ((1 : Nat).log2 : Int)) = n.log2 := by
    change (n.log2 : Int) - (0 : Nat) = n.log2
    exact Int.sub_zero _
  unfold binaryExponent
  rw [hguess]
  dsimp only
  rw [if_pos (Int.natCast_nonneg _), Int.toNat_natCast, Nat.one_mul]
  exact if_pos (decide_eq_true (Nat.log2_self_le h))

theorem le_log2 (h : exactBound < n) : 53 ≤ n.log2 := by
  have hbound : 2 ^ 53 ≤ n := Nat.le_of_lt h
  exact (Nat.le_log2 (by omega)).mpr hbound

/-- The number nearest to a whole number of more than 53 digits. -/
theorem ofNat_of_lt (h : exactBound < n) :
    ofNat n = if Nat.pow 2 1024 ≤ rounded n then infinity false
      else finite ((rounded n : Int) : Rat) := by
  have hlog := le_log2 h
  have hne : n ≠ 0 := by
    rintro rfl
    exact absurd h (Nat.not_lt_zero _)
  -- the last digit that is kept stands 52 places behind the first, far above the least exponent
  have hplace : Max.max (binaryExponent n 1 - 52) (-1074) = ((n.log2 - 52 : Nat) : Int) := by
    rw [binaryExponent_one hne]
    omega
  have hsignificand : significand n 1
      = (roundQuotient n (2 ^ (n.log2 - 52)), ((n.log2 - 52 : Nat) : Int)) := by
    unfold significand
    rw [hplace, if_pos (Int.natCast_nonneg _), Int.toNat_natCast, Nat.one_mul]
    rfl
  -- a whole number is a fraction whose denominator is one
  change nearest ((n : Int) : Rat) = _
  unfold nearest
  rw [Rat.den_intCast, Rat.num_intCast, Int.natAbs_natCast, if_neg (by omega), hsignificand]
  dsimp only
  rw [if_pos (Int.natCast_nonneg _), Int.toNat_natCast,
    if_neg (Int.not_lt.mpr (Int.natCast_nonneg n)), Int.one_mul,
    decide_eq_false (Int.not_lt.mpr (Int.natCast_nonneg n))]
  rfl

theorem ofNat_of_le (h : n ≤ exactBound) : ofNat n = finite ((n : Int) : Rat) :=
  Whole.of_le h

/-! ## Order -/

/-- The multiple lies between the two powers of two that the whole number lies between. -/
theorem rounded_bounds (h : 53 ≤ n.log2) :
    2 ^ n.log2 ≤ rounded n ∧ rounded n ≤ 2 ^ (n.log2 + 1) := by
  have hne : n ≠ 0 := by
    rintro rfl
    simp at h
  have hlow : 2 ^ n.log2 = 2 ^ 52 * 2 ^ (n.log2 - 52) := by
    rw [← Nat.pow_add]
    congr 1
    omega
  have hhigh : 2 ^ (n.log2 + 1) = 2 ^ 53 * 2 ^ (n.log2 - 52) := by
    rw [← Nat.pow_add]
    congr 1
    omega
  -- the digits that are kept are those of a number of exactly 53 digits
  have hfloor : 2 ^ 52 ≤ n / 2 ^ (n.log2 - 52) := by
    refine (Nat.le_div_iff_mul_le (Nat.two_pow_pos _)).mpr ?_
    rw [← hlow]
    exact Nat.log2_self_le hne
  have hceil : n / 2 ^ (n.log2 - 52) < 2 ^ 53 := by
    refine (Nat.div_lt_iff_lt_mul (Nat.two_pow_pos _)).mpr ?_
    rw [← hhigh]
    exact Nat.lt_log2_self
  unfold rounded
  refine ⟨?_, ?_⟩
  · rw [hlow]
    exact Nat.mul_le_mul_right _ (hfloor.trans (floor_le_roundQuotient _ _))
  · rw [hhigh]
    exact Nat.mul_le_mul_right _ ((roundQuotient_le _ _).trans hceil)

theorem rounded_mono (low : 53 ≤ a.log2) (h : a ≤ b) : rounded a ≤ rounded b := by
  have hlog : a.log2 ≤ b.log2 := by
    rw [Nat.log2_eq_log_two, Nat.log2_eq_log_two]
    exact Nat.log_mono_right h
  rcases Nat.lt_or_eq_of_le hlog with hlt | heq
  · calc rounded a
        ≤ 2 ^ (a.log2 + 1) := (rounded_bounds low).2
      _ ≤ 2 ^ b.log2 := Nat.pow_le_pow_right Nat.two_pos hlt
      _ ≤ rounded b := (rounded_bounds (low.trans hlog)).1
  · -- both are rounded on the same grid
    unfold rounded
    rw [heq]
    exact Nat.mul_le_mul_right _ (roundQuotient_mono h)

theorem exactBound_le_rounded (h : exactBound < n) : exactBound ≤ rounded n := by
  have hlog := le_log2 h
  calc exactBound
      ≤ 2 ^ n.log2 := Nat.pow_le_pow_right Nat.two_pos hlog
    _ ≤ rounded n := (rounded_bounds hlog).1

theorem finite_le (h : a ≤ b) :
    le (finite ((a : Int) : Rat)) (finite ((b : Int) : Rat)) = true := by
  unfold le
  rcases Nat.lt_or_eq_of_le h with hlt | rfl
  · have hrat : lt (finite ((a : Int) : Rat)) (finite ((b : Int) : Rat)) = true :=
      decide_eq_true (Rat.intCast_lt_intCast.mpr (Int.ofNat_lt.mpr hlt))
    rw [hrat, Bool.true_or]
  · simp

/-- **Rounding keeps the order**: the greater of two whole numbers has the greater nearest number,
or the same. -/
theorem ofNat_mono (h : a ≤ b) : le (ofNat a) (ofNat b) = true := by
  -- only the greater one may be out of range, and then it is infinite
  rcases Nat.lt_or_ge exactBound b with hb | hb
  · rw [ofNat_of_lt hb]
    rcases Nat.lt_or_ge exactBound a with ha | ha
    · have hle := rounded_mono (le_log2 ha) h
      rw [ofNat_of_lt ha]
      split_ifs
      · rfl
      · omega
      · rfl
      · exact finite_le hle
    · rw [ofNat_of_le ha]
      split_ifs
      · rfl
      · exact finite_le (ha.trans (exactBound_le_rounded hb))
  · rw [ofNat_of_le hb, ofNat_of_le (h.trans hb)]
    exact finite_le h

end Number

end BoundedJobs
