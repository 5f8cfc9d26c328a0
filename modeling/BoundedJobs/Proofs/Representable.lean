import BoundedJobs.Proofs.Rounding
import Mathlib.Algebra.Order.Field.Power
import Mathlib.Data.Rat.Floor

/-!
# Whole numbers that are numbers

A rational is a number when it is a significand of 53 binary digits times a power of two whose
exponent lies in the range of the set. Rounding a number changes nothing, and neither does cutting
off its fraction and rounding afterwards.

* `Number.Represented` — the rationals of the set;
* `Number.Whole.of_grid` — a whole number with 53 leading binary digits and zeros behind them is
  its own nearest number, as long as it is in range;
* `Number.Represented.floor` — the floor of a number is a number;
* `Number.Whole.of_nearest` — a whole number that something was rounded to is its own nearest
  number;
* `Number.Exact` — the same of a number that need not be whole.
-/

namespace BoundedJobs

namespace Number

variable {i j : Int} {n num den digits place : Nat} {q : Rat}

/-- **The rationals of the set.** At most 53 binary digits, times a power of two. -/
def Represented (q : Rat) : Prop :=
  ∃ digits place : Int,
    digits.natAbs < 2 ^ 53 ∧ -1074 ≤ place ∧ place ≤ 971 ∧ q = digits * (2 : Rat) ^ place

theorem represented_intCast {i : Int} (h : i.natAbs < 2 ^ 53) : Represented i :=
  ⟨i, 0, h, by decide, by decide, by rw [zpow_zero, mul_one]⟩

/-! ## Whole numbers on the grid -/

/-- A quotient without a rest is not rounded. -/
theorem roundQuotient_mul (a : Nat) (h : 0 < den) : roundQuotient (a * den) den = a := by
  unfold roundQuotient
  dsimp only
  rw [Nat.mul_mod_left, Nat.mul_div_cancel a h, if_pos (by omega)]

theorem rounded_of_dvd (h : 2 ^ (n.log2 - 52) ∣ n) : rounded n = n := by
  obtain ⟨a, ha⟩ := h
  have hn : n = a * 2 ^ (n.log2 - 52) := ha.trans (Nat.mul_comm _ _)
  calc rounded n
      = roundQuotient (a * 2 ^ (n.log2 - 52)) (2 ^ (n.log2 - 52)) * 2 ^ (n.log2 - 52) := by
        unfold rounded
        rw [← hn]
    _ = a * 2 ^ (n.log2 - 52) := by rw [roundQuotient_mul a (Nat.two_pow_pos _)]
    _ = n := hn.symm

/-- 53 leading digits and zeros behind them are what rounding leaves. -/
theorem rounded_of_grid (hdigits : digits ≤ 2 ^ 53) :
    rounded (digits * 2 ^ place) = digits * 2 ^ place := by
  refine rounded_of_dvd ?_
  rcases Nat.lt_or_eq_of_le hdigits with hlt | rfl
  · -- the place of the last digit that is kept is none of the leading ones
    refine Dvd.dvd.mul_left (Nat.pow_dvd_pow 2 ?_) digits
    have hle : (digits * 2 ^ place).log2 < 53 + place := by
      rcases Nat.eq_zero_or_pos digits with rfl | hpos
      · rw [Nat.zero_mul, Nat.log2_zero]
        omega
      · refine (Nat.log2_lt (Nat.mul_pos hpos (Nat.two_pow_pos _)).ne').mpr ?_
        rw [Nat.pow_add]
        exact Nat.mul_lt_mul_of_pos_right hlt (Nat.two_pow_pos _)
    omega
  · -- one digit more, and this digit is a zero
    rw [← Nat.pow_add, Nat.log2_two_pow]
    exact Nat.pow_dvd_pow 2 (Nat.sub_le _ _)

/-- **The grid of whole numbers.** Up to 53 digits, then zeros, and within the range of the set. -/
theorem Whole.of_grid (hdigits : digits ≤ 2 ^ 53)
    (hrange : digits * 2 ^ place < Nat.pow 2 1024) : Whole (digits * 2 ^ place : Nat) := by
  change ofNat (digits * 2 ^ place) = finite ((digits * 2 ^ place : Nat) : Int)
  by_cases h : digits * 2 ^ place ≤ exactBound
  · exact ofNat_of_le h
  · rw [ofNat_of_lt (Nat.lt_of_not_le h), rounded_of_grid hdigits]
    exact if_neg (Nat.not_le.mpr hrange)

theorem Whole.two_pow (h : place < 1024) : Whole (2 ^ place : Nat) := by
  have hrange : 1 * 2 ^ place < Nat.pow 2 1024 := by
    generalize 1024 = range at h ⊢
    rw [Nat.one_mul]
    exact Nat.pow_lt_pow_right (by decide) h
  rw [← Nat.one_mul (2 ^ place)]
  exact of_grid (by decide) hrange

/-! ## The digits of a fraction -/

/-- The binary exponent bounds a fraction from above. Both sides are scaled, so that no exponent is
negative. -/
theorem lt_of_binaryExponent_lt {up down : Nat} (hden : den ≠ 0)
    (h : binaryExponent num den < (up : Int) - down) : num * 2 ^ down < den * 2 ^ up := by
  by_cases hguess : (num.log2 : Int) - den.log2 < (up : Int) - down
  · -- the numbers of digits tell it already
    calc num * 2 ^ down
        < 2 ^ (num.log2 + 1) * 2 ^ down :=
          Nat.mul_lt_mul_of_pos_right Nat.lt_log2_self (Nat.two_pow_pos _)
      _ = 2 ^ (num.log2 + 1 + down) := (Nat.pow_add ..).symm
      _ ≤ 2 ^ (den.log2 + up) := Nat.pow_le_pow_right Nat.two_pos (by omega)
      _ = 2 ^ den.log2 * 2 ^ up := Nat.pow_add ..
      _ ≤ den * 2 ^ up := Nat.mul_le_mul_right _ (Nat.log2_self_le hden)
  · -- otherwise the numbers of digits tell one too many, which a comparison has found out
    unfold binaryExponent at h
    dsimp only at h
    -- the guess is a natural number or the negative of one, and the comparison is written without
    -- negative exponents in either case
    split at h
    · split at h
      · omega
      · next reached =>
        calc num * 2 ^ down
            < den * 2 ^ ((num.log2 : Int) - den.log2).toNat * 2 ^ down :=
              Nat.mul_lt_mul_of_pos_right (by simpa using reached) (Nat.two_pow_pos _)
          _ = den * 2 ^ (((num.log2 : Int) - den.log2).toNat + down) := by
              rw [Nat.mul_assoc, Nat.pow_add]
          _ ≤ den * 2 ^ up :=
              Nat.mul_le_mul_left _ (Nat.pow_le_pow_right Nat.two_pos (by omega))
    · split at h
      · omega
      · next reached =>
        calc num * 2 ^ down
            ≤ num * 2 ^ ((-((num.log2 : Int) - den.log2)).toNat + up) :=
              Nat.mul_le_mul_left _ (Nat.pow_le_pow_right Nat.two_pos (by omega))
          _ = num * 2 ^ (-((num.log2 : Int) - den.log2)).toNat * 2 ^ up := by
              rw [Nat.pow_add, Nat.mul_assoc]
          _ < den * 2 ^ up :=
              Nat.mul_lt_mul_of_pos_right (by simpa using reached) (Nat.two_pow_pos _)

/-- The significand of a fraction has 53 digits, or is the power of two behind them. -/
theorem significand_fst_le (num : Nat) (hden : den ≠ 0) : (significand num den).1 ≤ 2 ^ 53 := by
  have hplace : binaryExponent num den - 52 ≤ Max.max (binaryExponent num den - 52) (-1074) :=
    le_max_left ..
  unfold significand
  dsimp only
  generalize Max.max (binaryExponent num den - 52) (-1074) = place at hplace ⊢
  -- the quotient is cut off at 53 digits, and rounding adds at most one
  split
  · refine (roundQuotient_le _ _).trans (Nat.succ_le_of_lt ?_)
    refine (Nat.div_lt_iff_lt_mul (Nat.mul_pos (by omega) (Nat.two_pow_pos _))).mpr ?_
    have hlt : num * 2 ^ 0 < den * 2 ^ (53 + place.toNat) :=
      lt_of_binaryExponent_lt hden (by omega)
    calc num = num * 2 ^ 0 := (Nat.mul_one num).symm
      _ < den * 2 ^ (53 + place.toNat) := hlt
      _ = 2 ^ 53 * (den * 2 ^ place.toNat) := by
        rw [Nat.pow_add]
        ac_rfl
  · refine (roundQuotient_le _ _).trans (Nat.succ_le_of_lt ?_)
    refine (Nat.div_lt_iff_lt_mul (by omega)).mpr ?_
    have hlt : num * 2 ^ (-place).toNat < den * 2 ^ 53 :=
      lt_of_binaryExponent_lt hden (by omega)
    calc num * 2 ^ (-place).toNat
        < den * 2 ^ 53 := hlt
      _ = 2 ^ 53 * den := Nat.mul_comm ..

/-! ## Signs -/

theorem finite_neg_mul (sign magnitude : Int) :
    finite ((-sign * magnitude : Int) : Rat) = -finite ((sign * magnitude : Int) : Rat) := by
  rw [Int.neg_mul, Rat.intCast_neg]
  rfl

theorem finite_neg_mkRat (sign digits : Int) (den : Nat) :
    finite (mkRat (-sign * digits) den) = -finite (mkRat (sign * digits) den) := by
  rw [Int.neg_mul, ← Rat.neg_mkRat]
  rfl

/-- The number nearest to the negative is the negative of the nearest number. -/
theorem nearest_neg (q : Rat) : nearest (-q) = -nearest q := by
  -- only the sign of the numerator changes
  have hnum : (-q).num = -q.num := Rat.num_neg_eq_neg_num q
  have hden : (-q).den = q.den := Rat.den_neg_eq_den q
  have habs : (-q).num.natAbs = q.num.natAbs := by rw [hnum, Int.natAbs_neg]
  unfold nearest
  simp only [hden, habs]
  by_cases hsmall : q.den = 1 ∧ q.num.natAbs ≤ exactBound
  · rw [if_pos hsmall, if_pos hsmall]
    rfl
  · -- zero is small, so exactly one of the two is negative
    have hsign : ((-q).num < 0) = ¬ q.num < 0 := by
      have hzero : q.num ≠ 0 := by
        intro h
        rw [Rat.num_eq_zero.mp h] at hsmall
        exact hsmall ⟨rfl, Nat.zero_le _⟩
      rw [hnum]
      exact propext (by omega)
    rw [if_neg hsmall, if_neg hsmall]
    simp only [hsign]
    by_cases hneg : q.num < 0
    · simp only [hneg, not_true_eq_false, if_true, if_false, decide_true, decide_false]
      split
      · split
        · rfl
        · exact finite_neg_mul (-1) _
      · exact finite_neg_mkRat (-1) _ _
    · simp only [hneg, not_false_eq_true, if_true, if_false, decide_true, decide_false]
      split
      · split
        · rfl
        · exact finite_neg_mul 1 _
      · exact finite_neg_mkRat 1 _ _

/-- A whole number and its negative have the same digits. -/
theorem Whole.neg (h : Whole i) : Whole (-i) := by
  change nearest ((-i : Int) : Rat) = finite ((-i : Int) : Rat)
  rw [Rat.intCast_neg, nearest_neg]
  exact congrArg Neg.neg h

theorem Whole.of_natAbs (h : Whole i.natAbs) : Whole i := by
  rcases Int.natAbs_eq i with hpos | hneg
  · rwa [hpos]
  · rw [hneg]
    exact h.neg

/-! ## Rounded numbers -/

/-- **Rounding settles whole numbers.** A whole number that something was rounded to is its own
nearest number. -/
theorem Whole.of_nearest (h : nearest q = finite (i : Rat)) : Whole i := by
  unfold nearest at h
  split at h
  · next hsmall =>
    -- nothing was rounded
    obtain ⟨-, hbound⟩ := hsmall
    rw [finite.inj h, Rat.num_intCast] at hbound
    exact Whole.of_le hbound
  · have hdigits := significand_fst_le q.num.natAbs q.den_ne_zero
    generalize significand q.num.natAbs q.den = parts at h hdigits
    obtain ⟨digits, place⟩ := parts
    have hsign : (if q.num < 0 then -1 else 1 : Int).natAbs = 1 := by split <;> rfl
    dsimp only at h hdigits
    generalize (if q.num < 0 then -1 else 1 : Int) = sign at h hsign
    split at h
    · split at h
      · exact absurd h (by simp)
      · next hrange =>
        -- digits with zeros behind them
        have hi : i.natAbs = digits * 2 ^ place.toNat := by
          rw [← Rat.intCast_inj.mp (finite.inj h), Int.natAbs_mul, hsign, Nat.one_mul]
          rfl
        refine Whole.of_natAbs ?_
        rw [hi]
        exact Whole.of_grid hdigits (Nat.lt_of_not_le hrange)
    · -- a fraction whose numerator has no more than 53 digits
      have hpos : 0 < Nat.pow 2 (-place).toNat := Nat.two_pow_pos _
      have hi : sign * digits = i * (Nat.pow 2 (-place).toNat : Nat) := by
        have hmk : mkRat (sign * digits) (Nat.pow 2 (-place).toNat) = mkRat i 1 := by
          rw [finite.inj h, Rat.mkRat_one]
        rw [Rat.mkRat_eq_iff hpos.ne' Nat.one_ne_zero] at hmk
        rwa [Int.natCast_one, Int.mul_one] at hmk
      refine Whole.of_le ?_
      calc i.natAbs
          ≤ i.natAbs * Nat.pow 2 (-place).toNat := Nat.le_mul_of_pos_right _ hpos
        _ = (sign * digits).natAbs := by rw [hi, Int.natAbs_mul, Int.natAbs_natCast]
        _ = digits := by rw [Int.natAbs_mul, hsign, Nat.one_mul, Int.natAbs_natCast]
        _ ≤ exactBound := hdigits

/-- The floor of a number is a number. -/
theorem Represented.floor (h : Represented q) : Whole q.floor := by
  obtain ⟨digits, place, hdigits, -, hplace, rfl⟩ := h
  rcases Int.le_total 0 place with hpos | hneg
  · -- the number is whole itself
    obtain ⟨p, rfl⟩ := Int.eq_ofNat_of_zero_le hpos
    have hq : (digits : Rat) * (2 : Rat) ^ (p : Int) = ((digits * 2 ^ p : Int) : Rat) := by
      push_cast
      rw [zpow_natCast]
    have hlarge : 53 + p ≤ 1024 := by omega
    rw [hq, Rat.floor_intCast]
    refine Whole.of_natAbs ?_
    rw [Int.natAbs_mul, Int.natAbs_pow]
    refine Whole.of_grid hdigits.le ?_
    -- the power is held abstract, so that nothing evaluates it
    generalize 1024 = range at hlarge ⊢
    calc digits.natAbs * 2 ^ p
        < 2 ^ 53 * 2 ^ p := Nat.mul_lt_mul_of_pos_right hdigits (Nat.two_pow_pos _)
      _ = 2 ^ (53 + p) := (Nat.pow_add ..).symm
      _ ≤ Nat.pow 2 range := Nat.pow_le_pow_right Nat.two_pos hlarge
  · -- the number is no greater than its digits
    have hone : (2 : Rat) ^ place ≤ 1 := zpow_le_one_of_nonpos₀ one_le_two hneg
    have hzero : (0 : Rat) ≤ (2 : Rat) ^ place := zpow_nonneg zero_le_two _
    have habs : |(digits : Rat) * (2 : Rat) ^ place| ≤ ((2 ^ 53 : Int) : Rat) := by
      calc |(digits : Rat) * (2 : Rat) ^ place|
          = |(digits : Rat)| * (2 : Rat) ^ place := by rw [abs_mul, abs_of_nonneg hzero]
        _ ≤ |(digits : Rat)| := mul_le_of_le_one_right (abs_nonneg _) hone
        _ = ((digits.natAbs : Int) : Rat) := by rw [← Int.abs_eq_natAbs, Int.cast_abs]
        _ ≤ ((2 ^ 53 : Int) : Rat) := Int.cast_le.mpr (by omega)
    obtain ⟨hlow, hhigh⟩ := abs_le.mp habs
    have hbelow : -2 ^ 53 ≤ ((digits : Rat) * (2 : Rat) ^ place).floor :=
      Rat.le_floor_iff.mpr (by exact_mod_cast hlow)
    have habove : ((digits : Rat) * (2 : Rat) ^ place).floor ≤ 2 ^ 53 :=
      Int.cast_le.mp ((Rat.floor_le _).trans hhigh)
    refine Whole.of_le ?_
    change _ ≤ 2 ^ 53
    omega

/-! ## Numbers that may be whole -/

theorem eq_of_int? {n : Number} (h : n.int? = some i) : n = finite (i : Rat) := by
  unfold int? at h
  split at h
  · split at h
    · next value hden =>
      rw [← Option.some.inj h, (Rat.den_eq_one_iff value).mp hden]
    · exact absurd h (by simp)
  · exact absurd h (by simp)

theorem int?_finite (i : Int) : (finite (i : Rat)).int? = some i := by
  change (if (i : Rat).den = 1 then some (i : Rat).num else none) = some i
  rw [if_pos (Rat.den_intCast i), Rat.num_intCast]

theorem Whole.int? (h : Whole i) : (ofInt i).int? = some i := by
  rw [show ofInt i = finite (i : Rat) from h]
  exact int?_finite i

theorem lt_intCast_iff : lt (finite (i : Rat)) (finite (j : Rat)) = true ↔ i < j := by
  change decide ((i : Rat) < (j : Rat)) = true ↔ i < j
  rw [decide_eq_true_eq, Rat.intCast_lt_intCast]

theorem le_finite_iff {p q : Rat} : le (finite p) (finite q) = true ↔ p ≤ q := by
  change (decide (p < q) || (finite p == finite q && finite p != nan)) = true ↔ p ≤ q
  have hfinite : (finite p != nan) = true := bne_iff_ne.mpr Number.noConfusion
  rw [hfinite, Bool.and_true, Bool.or_eq_true, decide_eq_true_eq, beq_iff_eq, finite.injEq,
    le_iff_lt_or_eq]

theorem le_intCast_iff : le (finite (i : Rat)) (finite (j : Rat)) = true ↔ i ≤ j := by
  unfold le
  rw [Bool.or_eq_true, lt_intCast_iff, Bool.and_eq_true, beq_iff_eq, bne_iff_ne, finite.injEq,
    Rat.intCast_inj]
  constructor
  · rintro (h | ⟨h, -⟩) <;> omega
  · intro h
    rcases Int.lt_or_eq_of_le h with hlt | heq
    · exact Or.inl hlt
    · exact Or.inr ⟨heq, fun h => by cases h⟩

/-- **A number that a rounding leaves.** If it is whole, it is its own nearest number. -/
def Exact (n : Number) : Prop := ∀ i, n.int? = some i → Whole i

theorem exact_nearest (q : Rat) : Exact (nearest q) :=
  fun _ h => Whole.of_nearest (eq_of_int? h)

end Number

end BoundedJobs
