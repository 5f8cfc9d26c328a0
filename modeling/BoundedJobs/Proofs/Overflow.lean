import BoundedJobs.Proofs.Representable

/-!
# When rounding overflows

A rational whose magnitude is too large is rounded to an infinity. How large that is can be said
without a number: what is rounded to an infinity has a significand of 53 digits at a place above the
point, and everything greater has one at least as large. So whatever is no greater in magnitude than
a rational that is rounded to a finite number is rounded to a finite number as well.

* `Number.Overflows` — a fraction whose rounded magnitude is out of range (`nearest_finite_iff`);
* `Overflows.mono` — what is greater than such a fraction is one as well;
* `Number.nearest_finite_of_le` — rounding stays finite below what is rounded to a finite number;
* `Number.Between` — numbers between two others. Any two of them have a finite difference if the
  bounds have one (`Between.finite_sub`).
-/

namespace BoundedJobs

namespace Number

variable {range num den num' den' : Nat} {q r : Rat} {low high a b : Number}

/-! ## The exponent -/

/-- The binary exponent bounds a fraction from below. -/
theorem le_of_binaryExponent {exponent : Nat} (hnum : num ≠ 0)
    (h : binaryExponent num den = exponent) : den * 2 ^ exponent ≤ num := by
  -- one digit fewer than the numbers of digits tell is always reached
  have hfewer : (num.log2 : Int) - den.log2 - 1 = exponent → den * 2 ^ exponent ≤ num := by
    intro hexponent
    calc den * 2 ^ exponent
        ≤ 2 ^ (den.log2 + 1) * 2 ^ exponent := Nat.mul_le_mul_right _ Nat.lt_log2_self.le
      _ = 2 ^ (den.log2 + 1 + exponent) := (Nat.pow_add ..).symm
      _ = 2 ^ num.log2 := by congr 1; omega
      _ ≤ num := Nat.log2_self_le hnum
  unfold binaryExponent at h
  dsimp only at h
  split at h
  · next hguess =>
    split at h
    · next reached =>
      rw [h] at reached
      simpa using reached
    · exact hfewer h
  · split at h <;> omega

/-! ## Quotients with different divisors -/

/-- A quotient that is scaled is rounded in the same way. -/
theorem roundQuotient_scale (num den : Nat) {scale : Nat} (h : 0 < scale) :
    roundQuotient (num * scale) (den * scale) = roundQuotient num den := by
  unfold roundQuotient
  dsimp only
  rw [Nat.mul_div_mul_right _ _ h, Nat.mul_mod_mul_right, ← Nat.mul_assoc]
  simp only [Nat.mul_lt_mul_right h]

/-- Rounding keeps the order of fractions. -/
theorem roundQuotient_le_of_mul_le (hden : 0 < den) (hden' : 0 < den')
    (h : num * den' ≤ num' * den) : roundQuotient num den ≤ roundQuotient num' den' := by
  rw [← roundQuotient_scale num den hden', ← roundQuotient_scale num' den' hden,
    Nat.mul_comm den' den]
  exact roundQuotient_mono h

/-! ## Overflows -/

/-- A fraction that is rounded at a place above the point, to a magnitude that is out of range. -/
structure Overflows (range num den place : Nat) : Prop where
  exponent : binaryExponent num den = (place + 52 : Nat)
  large : Nat.pow 2 range ≤ roundQuotient num (den * 2 ^ place) * 2 ^ place

theorem Overflows.ne_zero {place : Nat} (h : Overflows range num den place) : num ≠ 0 := by
  rintro rfl
  have hzero : roundQuotient 0 (den * 2 ^ place) = 0 := by
    unfold roundQuotient
    simp
  have hlarge := h.large
  rw [hzero, Nat.zero_mul] at hlarge
  exact absurd hlarge (Nat.not_le.mpr (Nat.two_pow_pos range))

theorem Overflows.few {place : Nat} (hden : den ≠ 0) (h : Overflows range num den place) :
    roundQuotient num (den * 2 ^ place) ≤ 2 ^ 53 := by
  have hexponent := h.exponent
  have hlt : num * 2 ^ 0 < den * 2 ^ (53 + place) := lt_of_binaryExponent_lt hden (by omega)
  have hpos : 0 < den * 2 ^ place := Nat.mul_pos (Nat.pos_of_ne_zero hden) (Nat.two_pow_pos _)
  refine (roundQuotient_le _ _).trans (Nat.succ_le_of_lt ?_)
  refine (Nat.div_lt_iff_lt_mul hpos).mpr ?_
  calc num = num * 2 ^ 0 := (Nat.mul_one num).symm
    _ < den * 2 ^ (53 + place) := hlt
    _ = 2 ^ 53 * (den * 2 ^ place) := by rw [Nat.pow_add, Nat.mul_left_comm]

/-- **What is greater than an overflow overflows as well.** -/
theorem Overflows.mono {place : Nat} (hden : den ≠ 0) (hden' : den' ≠ 0)
    (h : Overflows range num den place) (hle : num * den' ≤ num' * den) :
    ∃ place', Overflows range num' den' place' := by
  have hnum := h.ne_zero
  have hpos : 0 < den := Nat.pos_of_ne_zero hden
  have hpos' : 0 < den' := Nat.pos_of_ne_zero hden'
  have hnum' : num' ≠ 0 := by
    rintro rfl
    rw [Nat.zero_mul, Nat.le_zero, Nat.mul_eq_zero] at hle
    exact hle.elim hnum hden'
  -- both fractions are compared with the power of two below the smaller one
  have hlow := le_of_binaryExponent hnum h.exponent
  -- the exponent of the greater fraction is no less
  have hexponent : ((place + 52 : Nat) : Int) ≤ binaryExponent num' den' := by
    by_contra hlt
    have hsmall : num' * 2 ^ 0 < den' * 2 ^ (place + 52) :=
      lt_of_binaryExponent_lt hden' (by omega)
    rw [Nat.pow_zero, Nat.mul_one] at hsmall
    refine absurd ?_ (Nat.lt_irrefl (num' * den))
    generalize 2 ^ (place + 52) = scale at hlow hsmall
    calc num' * den
        < den' * scale * den := Nat.mul_lt_mul_of_pos_right hsmall hpos
      _ = den * scale * den' := by ac_rfl
      _ ≤ num * den' := Nat.mul_le_mul_right _ hlow
      _ ≤ num' * den := hle
  obtain ⟨more, hmore⟩ := Int.le.dest hexponent
  refine ⟨place + more, by omega, ?_⟩
  rcases Nat.eq_zero_or_pos more with rfl | hlater
  · -- at the same place the rounding keeps the order
    refine h.large.trans (Nat.mul_le_mul_right _ (roundQuotient_le_of_mul_le ?_ ?_ ?_))
    · exact Nat.mul_pos hpos (Nat.two_pow_pos _)
    · exact Nat.mul_pos hpos' (Nat.two_pow_pos _)
    · calc num * (den' * 2 ^ (place + 0)) = num * den' * 2 ^ place := by rw [Nat.mul_assoc]; rfl
        _ ≤ num' * den * 2 ^ place := Nat.mul_le_mul_right _ hle
        _ = num' * (den * 2 ^ place) := Nat.mul_assoc ..
  · -- at a later place the leading digit alone is as large as all digits at the earlier one
    have hlow' : den' * 2 ^ (place + more + 52) ≤ num' :=
      le_of_binaryExponent hnum' (by omega)
    have hdigits : 2 ^ 52 ≤ roundQuotient num' (den' * 2 ^ (place + more)) := by
      refine le_trans ?_ (floor_le_roundQuotient _ _)
      refine (Nat.le_div_iff_mul_le (Nat.mul_pos hpos' (Nat.two_pow_pos _))).mpr ?_
      calc 2 ^ 52 * (den' * 2 ^ (place + more))
          = den' * (2 ^ (place + more) * 2 ^ 52) := by rw [Nat.mul_comm, Nat.mul_assoc]
        _ = den' * 2 ^ (place + more + 52) := by rw [← Nat.pow_add]
        _ ≤ num' := hlow'
    calc 2 ^ range ≤ roundQuotient num (den * 2 ^ place) * 2 ^ place := h.large
      _ ≤ 2 ^ 53 * 2 ^ place := Nat.mul_le_mul_right _ (h.few hden)
      _ = 2 ^ (53 + place) := (Nat.pow_add ..).symm
      _ ≤ 2 ^ (52 + (place + more)) := Nat.pow_le_pow_right Nat.two_pos (by omega)
      _ = 2 ^ 52 * 2 ^ (place + more) := Nat.pow_add ..
      _ ≤ _ := Nat.mul_le_mul_right _ hdigits

/-- Up to `exactBound` no whole number overflows. -/
theorem not_overflows_of_le {place : Nat} (small : num ≤ exactBound) :
    ¬ Overflows 1024 num 1 place := by
  intro h
  have hrange : 1000 < 1024 := by decide
  generalize 1024 = range at h hrange
  have hlow : 1 * 2 ^ (place + 52) ≤ num := le_of_binaryExponent h.ne_zero h.exponent
  have hhigh : 2 ^ range ≤ 2 ^ (53 + place) :=
    calc 2 ^ range ≤ _ := h.large
      _ ≤ 2 ^ 53 * 2 ^ place := Nat.mul_le_mul_right _ (h.few Nat.one_ne_zero)
      _ = 2 ^ (53 + place) := (Nat.pow_add ..).symm
  have hplace : range ≤ 53 + place := (Nat.pow_le_pow_iff_right Nat.one_lt_two).mp hhigh
  have hfew : 2 ^ (place + 52) ≤ 2 ^ 53 := by
    rw [← Nat.one_mul (2 ^ (place + 52))]
    exact hlow.trans small
  have := (Nat.pow_le_pow_iff_right Nat.one_lt_two).mp hfew
  omega

/-- The significand of a fraction that is rounded at a place above the point. -/
theorem significand_of_exponent {place : Nat} (h : binaryExponent num den = (place + 52 : Nat)) :
    significand num den = (roundQuotient num (den * 2 ^ place), (place : Int)) := by
  have hplace : Max.max (binaryExponent num den - 52) (-1074) = place := by omega
  unfold significand
  dsimp only
  rw [hplace, if_pos (Int.natCast_nonneg place)]
  rfl

theorem significand_snd_neg (h : ∀ place : Nat, binaryExponent num den ≠ (place + 52 : Nat)) :
    (significand num den).2 < 0 := by
  have hneg : Max.max (binaryExponent num den - 52) (-1074) < 0 := by
    have := h (binaryExponent num den - 52).toNat
    omega
  unfold significand
  dsimp only
  rw [if_neg (Int.not_le.mpr hneg)]
  exact hneg

/-- **When rounding stays finite**: exactly if the magnitude does not overflow. -/
theorem nearest_finite_iff (q : Rat) :
    (∃ v, nearest q = finite v) ↔ ∀ place, ¬ Overflows 1024 q.num.natAbs q.den place := by
  unfold nearest
  -- small whole numbers are not rounded at all
  split
  · next hsmall =>
    obtain ⟨hden, hle⟩ := hsmall
    rw [hden]
    exact ⟨fun _ place => not_overflows_of_le hle, fun _ => ⟨q, rfl⟩⟩
  · -- only a significand of full length can be too large, so the exponent decides
    by_cases habove : ∃ place : Nat, binaryExponent q.num.natAbs q.den = (place + 52 : Nat)
    · obtain ⟨place, hexponent⟩ := habove
      rw [significand_of_exponent hexponent]
      dsimp only
      rw [if_pos (Int.natCast_nonneg place), Int.toNat_natCast,
        show Nat.pow 2 place = 2 ^ place from rfl]
      generalize 1024 = range
      split
      · next hlarge =>
        exact ⟨fun ⟨v, hv⟩ => absurd hv (by simp), fun h => absurd ⟨hexponent, hlarge⟩ (h place)⟩
      · next hfits =>
        refine ⟨fun _ other h => hfits ?_, fun _ => ⟨_, rfl⟩⟩
        obtain rfl : other = place := by
          have := h.exponent
          omega
        exact h.large
    · -- below that the last digit stands behind the point, and the result is small
      have hneg := significand_snd_neg fun place h => habove ⟨place, h⟩
      generalize significand q.num.natAbs q.den = parts at hneg
      obtain ⟨digits, place⟩ := parts
      dsimp only at hneg ⊢
      rw [if_neg (Int.not_le.mpr hneg)]
      exact ⟨fun _ place h => habove ⟨place, h.exponent⟩, fun _ => ⟨_, rfl⟩⟩

/-- **Rounding stays finite below what is rounded to a finite number.** -/
theorem nearest_finite_of_le (h : |q| ≤ |r|) (finite_r : ∃ v, nearest r = finite v) :
    ∃ v, nearest q = finite v := by
  rw [nearest_finite_iff] at finite_r ⊢
  intro place hover
  have hle : q.num.natAbs * r.den ≤ r.num.natAbs * q.den := by
    rw [Rat.le_iff, Rat.num_abs_eq_abs_num, Rat.num_abs_eq_abs_num, Rat.den_abs_eq_den,
      Rat.den_abs_eq_den, Int.abs_eq_natAbs, Int.abs_eq_natAbs] at h
    exact_mod_cast h
  obtain ⟨place', hover'⟩ := hover.mono q.den_ne_zero r.den_ne_zero hle
  exact finite_r place' hover'

/-! ## Differences -/

/-- A number between two others. -/
def Between (low high n : Number) : Prop := le low n = true ∧ le n high = true

theorem Between.exists_finite {l h : Rat} (between : Between (finite l) (finite h) a) :
    ∃ v, a = finite v ∧ l ≤ v ∧ v ≤ h := by
  obtain ⟨hlow, hhigh⟩ := between
  cases a with
  | finite v => exact ⟨v, rfl, le_finite_iff.mp hlow, le_finite_iff.mp hhigh⟩
  | infinity negative => cases negative <;> simp [le, lt] at hlow hhigh
  | nan => simp [le, lt] at hlow

/-- **A difference of numbers between two bounds** is finite if that of the bounds is. -/
theorem Between.finite_sub (ha : Between low high a) (hb : Between low high b)
    (bounds : ∃ v, high - low = finite v) : ∃ v, a - b = finite v := by
  -- only finite numbers have a finite difference
  obtain ⟨l, h, rfl, rfl⟩ : ∃ l h, low = finite l ∧ high = finite h := by
    obtain ⟨v, hv⟩ := bounds
    cases low with
    | finite l =>
      cases high with
      | finite h => exact ⟨l, h, rfl, rfl⟩
      | infinity | nan => cases hv
    | infinity up =>
      cases high with
      | finite | nan => cases hv
      | infinity down => cases up <;> cases down <;> cases hv
    | nan => cases high <;> cases hv
  obtain ⟨p, rfl, hlp, hph⟩ := ha.exists_finite
  obtain ⟨q, rfl, hlq, hqh⟩ := hb.exists_finite
  change ∃ v, nearest (p + -q) = finite v
  refine nearest_finite_of_le (r := h + -l) ?_ bounds
  rw [abs_le, abs_of_nonneg (by linarith)]
  constructor <;> linarith

end Number

end BoundedJobs
