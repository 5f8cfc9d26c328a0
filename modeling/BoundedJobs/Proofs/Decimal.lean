import BoundedJobs.Proofs.Overflow
import Mathlib.Algebra.Order.Field.Power
import Mathlib.Tactic.NormNum.Pow

/-!
# Decimals are rounded once

Magnitudes far outside the set of numbers are answered without computing a power of ten. The answer
is the same as if it had been computed: a decimal is the number nearest to the rational that its
digits and its exponent stand for.

* `Number.nearest_eq_zero`, `Number.nearest_eq_infinity` — rationals that are rounded to zero and to
  an infinity;
* `Number.ofDecimal_eq_nearest` — every decimal is rounded once;
* `Number.ofDecimal_zero`, `Number.ofDecimal_mul_pow` — so a decimal without an exponent is a
  natural number, and zeros at its end count for the exponent.
-/

namespace BoundedJobs

namespace Number

variable {num den digits : Nat} {exponent : Int} {q : Rat}

/-! ## Very small rationals -/

theorem roundQuotient_eq_zero (h : 2 * num < den) : roundQuotient num den = 0 := by
  have hlow : num / den = 0 := Nat.div_eq_of_lt (by omega)
  have hrest : num % den = num := Nat.mod_eq_of_lt (by omega)
  unfold roundQuotient
  dsimp only
  rw [hlow, hrest, if_pos h]

/-- A fraction below a power of two has an exponent below it. -/
theorem binaryExponent_le {down : Nat} (hnum : num ≠ 0) (h : num * 2 ^ down < den) :
    binaryExponent num den ≤ -(down : Int) := by
  have hden : den ≠ 0 := by omega
  have hlogs : num.log2 + down ≤ den.log2 := by
    rw [Nat.le_log2 hden, Nat.pow_add]
    exact (Nat.mul_le_mul_right _ (Nat.log2_self_le hnum)).trans h.le
  unfold binaryExponent
  dsimp only
  split <;> split <;> omega

/-- Below half of its last place a fraction has no digits. -/
theorem significand_eq_zero {down : Nat} (hdown : 0 < down)
    (hplace : Max.max (binaryExponent num den - 52) (-1074) = -(down : Int))
    (h : num * 2 ^ (down + 1) < den) : significand num den = (0, -(down : Int)) := by
  have hround : roundQuotient (num * 2 ^ down) den = 0 := by
    rw [pow_succ] at h
    refine roundQuotient_eq_zero (lt_of_eq_of_lt ?_ h)
    ac_rfl
  unfold significand
  dsimp only
  rw [hplace, if_neg (by omega), neg_neg, Int.toNat_natCast, Nat.pow_eq, hround]

/-- Below half of the smallest positive number. -/
theorem nearest_eq_zero (h : q.num.natAbs * 2 ^ 1075 < q.den) : nearest q = finite 0 := by
  by_cases hzero : q.num.natAbs = 0
  · obtain rfl : q = 0 := Rat.num_eq_zero.mp (Int.natAbs_eq_zero.mp hzero)
    rfl
  · have hden : q.den ≠ 1 := by
      intro hone
      rw [hone, Nat.lt_one_iff, Nat.mul_eq_zero] at h
      exact h.elim hzero (NeZero.ne _)
    -- the last place is that of the smallest positive number
    have hplaces : 1075 = 1074 + 1 := rfl
    rw [hplaces] at h
    have hplace : Max.max (binaryExponent q.num.natAbs q.den - 52) (-1074) =
        -((1074 : Nat) : Int) := by
      have := binaryExponent_le hzero h
      omega
    have hnone (sign : Int) (scale : Nat) : mkRat (sign * (0 : Nat)) scale = 0 := by
      rw [Int.natCast_zero, Int.mul_zero, Rat.zero_mkRat]
    unfold nearest
    rw [if_neg fun h => hden h.1, significand_eq_zero (by decide) hplace h]
    dsimp only
    rw [if_neg (by decide), hnone]

/-! ## Very large rationals -/

theorem nearest_cases (q : Rat) :
    (∃ v, nearest q = finite v) ∨ nearest q = infinity (q.num < 0) := by
  unfold nearest
  dsimp only
  split
  · exact Or.inl ⟨_, rfl⟩
  · split
    · split
      · exact Or.inr rfl
      · exact Or.inl ⟨_, rfl⟩
    · exact Or.inl ⟨_, rfl⟩

theorem nearest_ne_nan (q : Rat) : nearest q ≠ nan := by
  rcases nearest_cases q with ⟨v, hv⟩ | hinfinity
  · rw [hv]
    exact nofun
  · rw [hinfinity]
    exact nofun

/-- From the first power of two behind the greatest number on. -/
theorem nearest_eq_infinity (h : 2 ^ 1024 ≤ q) : nearest q = infinity false := by
  have hbound : (0 : Rat) < 2 ^ 1024 := by positivity
  have hpositive : 0 < q := lt_of_lt_of_le hbound h
  have hsign : decide (q.num < 0) = false :=
    decide_eq_false (not_lt.mpr (Rat.num_nonneg.mpr hpositive.le))
  rcases nearest_cases q with hfinite | hinfinity
  · -- otherwise that power of two would be rounded to a finite number as well
    have hpower : nearest (2 ^ 1024) = infinity false := by decide +kernel
    have hle : |(2 ^ 1024 : Rat)| ≤ |q| := by
      rw [abs_of_pos hbound, abs_of_pos hpositive]
      exact h
    obtain ⟨v, hv⟩ := nearest_finite_of_le hle hfinite
    rw [hpower] at hv
    cases hv
  · rw [hinfinity, hsign]

/-! ## Decimals -/

theorem lt_pow_length (digits : Nat) : digits < 10 ^ (Nat.toDigits 10 digits).length :=
  (Nat.length_toDigits_le_iff (by decide) Nat.length_toDigits_pos).mp le_rfl

theorem pow_length_le (h : digits ≠ 0) : 10 ^ ((Nat.toDigits 10 digits).length - 1) ≤ digits := by
  by_contra hless
  by_cases hone : (Nat.toDigits 10 digits).length - 1 = 0
  · rw [hone, pow_zero] at hless
    omega
  · have := (Nat.length_toDigits_le_iff (by decide) (Nat.pos_of_ne_zero hone)).mpr
      (Nat.not_le.mp hless)
    omega

theorem zpow_neg_mul_pow (n : Nat) : (10 : Rat) ^ (-(n : Int)) * 10 ^ n = 1 := by
  rw [zpow_neg, zpow_natCast]
  exact inv_mul_cancel₀ (by positivity)

/-- A decimal with more than four hundred digits in front of the point. -/
theorem two_pow_le_decimal (hdigits : digits ≠ 0)
    (h : 400 < exponent + (Nat.toDigits 10 digits).length) :
    (2 : Rat) ^ 1024 ≤ digits * 10 ^ exponent := by
  have hlength : 0 < (Nat.toDigits 10 digits).length := Nat.length_toDigits_pos
  have hlower : ((10 : Rat) ^ ((Nat.toDigits 10 digits).length - 1)) ≤ digits := by
    exact_mod_cast pow_length_le hdigits
  calc (2 : Rat) ^ 1024
      ≤ 10 ^ 400 := by decide +kernel
    _ = (10 : Rat) ^ ((400 : Nat) : Int) := (zpow_natCast _ _).symm
    _ ≤ 10 ^ ((((Nat.toDigits 10 digits).length - 1 : Nat) : Int) + exponent) :=
        zpow_le_zpow_right₀ (by norm_num) (by omega)
    _ = 10 ^ ((Nat.toDigits 10 digits).length - 1) * 10 ^ exponent := by
        rw [zpow_add₀ (by norm_num), zpow_natCast]
    _ ≤ digits * 10 ^ exponent := mul_le_mul_of_nonneg_right hlower (by positivity)

/-- A decimal with more than four hundred zeros behind the point. -/
theorem decimal_mul_two_pow_lt (h : exponent + (Nat.toDigits 10 digits).length < -400) :
    (digits * 10 ^ exponent : Rat) * 2 ^ 1075 < 1 := by
  have hupper : (digits : Rat) < 10 ^ (Nat.toDigits 10 digits).length := by
    exact_mod_cast lt_pow_length digits
  have hpower : (2 : Rat) ^ 1075 ≤ 10 ^ 401 := by decide +kernel
  have hbelow : (digits * 10 ^ exponent : Rat) < 10 ^ (-((401 : Nat) : Int)) := by
    calc (digits * 10 ^ exponent : Rat)
        < 10 ^ (Nat.toDigits 10 digits).length * 10 ^ exponent :=
          mul_lt_mul_of_pos_right hupper (by positivity)
      _ = 10 ^ (((Nat.toDigits 10 digits).length : Int) + exponent) := by
          rw [zpow_add₀ (by norm_num), zpow_natCast]
      _ ≤ 10 ^ (-((401 : Nat) : Int)) := zpow_le_zpow_right₀ (by norm_num) (by omega)
  calc (digits * 10 ^ exponent : Rat) * 2 ^ 1075
      < 10 ^ (-((401 : Nat) : Int)) * 2 ^ 1075 := mul_lt_mul_of_pos_right hbelow (by positivity)
    _ ≤ 10 ^ (-((401 : Nat) : Int)) * 10 ^ 401 := mul_le_mul_of_nonneg_left hpower (by positivity)
    _ = 1 := zpow_neg_mul_pow 401

/-- **Every decimal is rounded once**, however large or small it is. -/
theorem ofDecimal_eq_nearest (digits : Nat) (exponent : Int) :
    ofDecimal digits exponent = nearest (digits * 10 ^ exponent) := by
  unfold ofDecimal
  dsimp only
  -- zero and two shortcuts come first: what is far too large or too small is not computed
  split
  · next hzero =>
    rw [hzero, Nat.cast_zero, zero_mul]
    rfl
  next hdigits =>
  split
  · next hlarge => exact (nearest_eq_infinity (two_pow_le_decimal hdigits hlarge)).symm
  split
  · next hsmall =>
    have hlt := decimal_mul_two_pow_lt hsmall
    have hnonneg : (0 : Rat) ≤ digits * 10 ^ exponent := by positivity
    generalize (digits * 10 ^ exponent : Rat) = q at hlt hnonneg
    refine (nearest_eq_zero ?_).symm
    -- the power is held abstract, so that nothing evaluates it
    generalize 1075 = power at hlt ⊢
    have hden : (0 : Rat) < q.den := by exact_mod_cast q.pos
    have hnum : ((q.num.natAbs : Nat) : Rat) = q.num := by
      rw [← Int.cast_natCast, Int.natAbs_of_nonneg (Rat.num_nonneg.mpr hnonneg)]
    rw [← Rat.num_div_den q, div_mul_eq_mul_div, div_lt_one hden, ← hnum] at hlt
    exact_mod_cast hlt
  split
  · next hwhole =>
    obtain ⟨n, rfl⟩ := Int.eq_ofNat_of_zero_le hwhole
    change nearest (((digits * 10 ^ n : Nat) : Int) : Rat) = _
    rw [zpow_natCast]
    push_cast
    rfl
  · next hfraction =>
    obtain ⟨n, hn⟩ : ∃ n : Nat, exponent = -(n : Int) := ⟨(-exponent).toNat, by omega⟩
    subst hn
    rw [neg_neg, Int.toNat_natCast, Nat.pow_eq, Rat.mkRat_eq_div, zpow_neg, zpow_natCast,
      div_eq_mul_inv]
    push_cast
    rfl

theorem ofDecimal_zero (n : Nat) : ofDecimal n 0 = .ofNat n := by
  rw [ofDecimal_eq_nearest, zpow_zero, mul_one]
  exact congrArg nearest (Int.cast_natCast n).symm

/-- **Zeros at the end** count for the exponent. -/
theorem ofDecimal_mul_pow (digits count : Nat) (exponent : Int) :
    ofDecimal (digits * 10 ^ count) exponent = ofDecimal digits (exponent + count) := by
  rw [ofDecimal_eq_nearest, ofDecimal_eq_nearest, zpow_add₀ (by norm_num), zpow_natCast]
  congr 1
  push_cast
  ring

end Number

end BoundedJobs
