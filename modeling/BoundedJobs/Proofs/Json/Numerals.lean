import BoundedJobs.Proofs.Json.Spelling
import Mathlib.Data.List.Induction
import Mathlib.Tactic.Ring

/-!
# The text of a number is a numeral

The shortest digits of a number are laid out in one of four ways. Each of them is a numeral of JSON,
and it is read as the number nearest to the decimal that was laid out, so the text of a finite
number is read as that number, or as zero if no decimal of seventeen digits was found for it.

* `Number.Decimal.number_trimmed` — zeros at the end of a decimal do not change the number nearest
  to it;
* `Json.Spells` — the digits of a decimal. Each way to lay them out is a numeral;
* `Json.magnitude?_layout` — a decimal that was laid out is read as the number nearest to it;
* `Json.exists_numberReadsAs` — every finite number is read as some number;
* `Json.legible_of_whole` — whole numbers below `10 ^ 17` are legible.
-/

namespace BoundedJobs

/-! ## Decimals -/

namespace Number

variable {place : Int} {q : Rat}

namespace Decimal

variable {d : Decimal}

/-- **Zeros at the end** do not change the number nearest to a decimal. -/
theorem number_trimmed (fuel : Nat) (d : Decimal) : (d.trimmed fuel).number = d.number := by
  induction fuel generalizing d with
  | zero => rfl
  | succ fuel ih =>
    unfold trimmed
    split
    · next hzero =>
      rw [ih]
      have hten : d.digits / 10 * 10 ^ 1 = d.digits :=
        Nat.div_mul_cancel (Nat.dvd_of_mod_eq_zero hzero.2)
      calc ofDecimal (d.digits / 10) (d.place + 1)
          = ofDecimal (d.digits / 10 * 10 ^ 1) d.place := (ofDecimal_mul_pow _ 1 _).symm
        _ = ofDecimal d.digits d.place := by rw [hten]
    · rfl

theorem digits_ne_zero_of_number {q : Rat} (hq : q ≠ 0) (h : d.number = finite q) :
    d.digits ≠ 0 := by
  intro hzero
  unfold number at h
  rw [hzero] at h
  exact hq (finite.inj h).symm

end Decimal

/-! ## The digits that are found -/

theorem number_of_onGrid? {d : Decimal} (h : onGrid? q place = some d) : d.number = finite q := by
  unfold onGrid? at h
  dsimp only at h
  -- where the two neighbours lie does not matter, only that one of them reads back
  generalize (if 0 ≤ place then q / (Nat.pow 10 place.toNat : Nat)
    else q * (Nat.pow 10 (-place).toNat : Nat)) = scaled at h
  split at h
  · next hbelow habove =>
    split_ifs at h
    all_goals
      cases h
      first | exact beq_iff_eq.mp hbelow | exact beq_iff_eq.mp habove
  · next hbelow _ =>
    cases h
    exact beq_iff_eq.mp hbelow
  · next habove =>
    cases h
    exact beq_iff_eq.mp habove
  · cases h

/-- **The shortest digits** are those of the number, or zero if no grid has any. -/
theorem number_shortest (q : Rat) :
    (shortest q).number = finite q ∨ shortest q = ⟨0, 0⟩ ∧
      ∀ count : Nat, count < 17 → onGrid? q (decimalExponent q - (count : Int)) = none := by
  unfold shortest
  dsimp only
  cases hfound : (List.range 17).findSome? fun count : Nat =>
      onGrid? q (decimalExponent q - (count : Int)) with
  | none =>
    rw [List.findSome?_eq_none_iff] at hfound
    exact .inr ⟨rfl, fun count hcount => hfound count (List.mem_range.mpr hcount)⟩
  | some d =>
    obtain ⟨count, -, hd⟩ := List.exists_of_findSome?_eq_some hfound
    refine .inl ?_
    rw [Option.getD_some, Decimal.number_trimmed]
    exact number_of_onGrid? hd

end Number

/-! ## Layouts -/

namespace Json

variable {d : Number.Decimal} {rest fraction behind digits : List Char} {n m : Number}

theorem decimalValue_concat (front : List Char) (c : Char) :
    decimalValue (front ++ [c]) = decimalValue front * 10 + (c.toNat - '0'.toNat) := by
  unfold decimalValue
  rw [List.foldl_append]
  rfl

/-- Digits in front of others count for as many places. -/
theorem decimalValue_append (front back : List Char) :
    decimalValue (front ++ back) = decimalValue front * 10 ^ back.length + decimalValue back := by
  induction back using List.reverseRecOn with
  | nil => rw [List.append_nil, List.length_nil, Nat.pow_zero, Nat.mul_one]; rfl
  | append_singleton back c ih =>
    rw [← List.append_assoc, decimalValue_concat, ih, decimalValue_concat, List.length_append,
      List.length_singleton, Nat.pow_succ]
    ring

/-- Zeros in front of digits. -/
theorem decimalValue_zeros_append (count : Nat) (digits : List Char) :
    decimalValue (List.replicate count '0' ++ digits) = decimalValue digits := by
  induction count with
  | zero => rfl
  | succ count ih => exact ih

/-- Zeros behind digits. -/
theorem decimalValue_append_zeros (digits : List Char) (count : Nat) :
    decimalValue (digits ++ List.replicate count '0') = decimalValue digits * 10 ^ count := by
  have hzeros := decimalValue_zeros_append count []
  rw [List.append_nil] at hzeros
  rw [decimalValue_append, hzeros, List.length_replicate]
  rfl

theorem isDigit_of_mem_zeros {c : Char} {count : Nat} (h : c ∈ List.replicate count '0') :
    isDigit c = true := by
  rw [List.eq_of_mem_replicate h]
  rfl

/-- Digits behind a point are a fraction. -/
theorem fractionPart?_point (hdigits : ∀ c ∈ fraction, isDigit c = true) (hsome : fraction ≠ [])
    (hbehind : behind.takeWhile isDigit = []) :
    fractionPart? ('.' :: (fraction ++ behind)) = some (fraction, behind) := by
  change (if ((fraction ++ behind).takeWhile isDigit).isEmpty then none
    else some ((fraction ++ behind).takeWhile isDigit, (fraction ++ behind).dropWhile isDigit)) = _
  rw [takeWhile_digits hdigits hbehind, dropWhile_digits hdigits hbehind,
    if_neg (by rwa [List.isEmpty_iff])]

/-- Digits are an exponent, with a sign in front of them or without one. -/
theorem signedExponent?_digits (hdigits : ∀ c ∈ digits, isDigit c = true) (hsome : digits ≠ [])
    (h : rest.takeWhile isDigit = []) :
    signedExponent? (digits ++ rest) = some ((decimalValue digits : Int), rest) ∧
      signedExponent? ('+' :: (digits ++ rest)) = some ((decimalValue digits : Int), rest) ∧
      signedExponent? ('-' :: (digits ++ rest)) = some (-(decimalValue digits : Int), rest) := by
  have htake := takeWhile_digits hdigits h
  have hdrop := dropWhile_digits hdigits h
  have hread (negative : Bool) :
      (if ((digits ++ rest).takeWhile isDigit).isEmpty then none
        else some (if negative then -(decimalValue ((digits ++ rest).takeWhile isDigit) : Int)
          else decimalValue ((digits ++ rest).takeWhile isDigit),
          (digits ++ rest).dropWhile isDigit)) =
        some (if negative then -(decimalValue digits : Int) else decimalValue digits, rest) := by
    rw [htake, hdrop, if_neg (by rwa [List.isEmpty_iff])]
  refine ⟨?_, hread false, hread true⟩
  -- without a sign the first character is a digit
  unfold signedExponent?
  split
  next hsign =>
  split at hsign
  · next heq =>
    rw [heq] at htake
    exact absurd htake.symm hsome
  · next heq =>
    rw [heq] at htake
    exact absurd htake.symm hsome
  · cases hsign
    exact hread false

/-- A sign and digits behind the mark for it are an exponent. -/
theorem exponentPart?_signed (exponent : Int) (h : Stops rest) :
    exponentPart? ('e' :: (if exponent < 0 then '-' else '+') ::
      (Nat.toDigits 10 exponent.natAbs ++ rest)) = some (exponent, rest) := by
  obtain ⟨-, hplus, hminus⟩ := signedExponent?_digits
    (fun _ => isDigit_of_mem_toDigits (n := exponent.natAbs)) Nat.toDigits_ne_nil h.takeWhile
  rw [decimalValue_toDigits] at hplus hminus
  by_cases hneg : exponent < 0
  · rw [if_pos hneg]
    refine hminus.trans (congrArg some (Prod.ext ?_ rfl))
    dsimp only
    omega
  · rw [if_neg hneg]
    refine hplus.trans (congrArg some (Prod.ext ?_ rfl))
    dsimp only
    omega

theorem takeWhile_isDigit_mark (cs : List Char) :
    ('.' :: cs).takeWhile isDigit = [] ∧ ('e' :: cs).takeWhile isDigit = [] := ⟨rfl, rfl⟩

/-- A point inside digits, with or without an exponent behind them. -/
theorem magnitude?_pointed {front back later : List Char} {exponent : Int}
    (hfront : ∀ c ∈ front, isDigit c = true) (hback : ∀ c ∈ back, isDigit c = true)
    (hsome : front ≠ []) (hzero : front.head? = some '0' → front.length = 1) (hplaces : back ≠ [])
    (hlater : later.takeWhile isDigit = [])
    (hexponent : exponentPart? later = some (exponent, rest)) :
    magnitude? (front ++ '.' :: (back ++ later)) =
      some (Number.ofDecimal (decimalValue (front ++ back)) (exponent - back.length), rest) :=
  magnitude?_of_parts hfront hsome hzero (takeWhile_isDigit_mark _).1
    (fractionPart?_point hback hplaces hlater) hexponent

/-- Characters that spell the digits of a decimal, with no zero in front of others. -/
structure Spells (ds : List Char) (d : Number.Decimal) : Prop where
  digits : ∀ c ∈ ds, isDigit c = true
  value : decimalValue ds = d.digits
  ne_nil : 0 < ds.length
  zero : ds.head? = some '0' → d.digits = 0 ∧ ds.length = 1

theorem spells_toDigits (d : Number.Decimal) : Spells (Nat.toDigits 10 d.digits) d where
  digits := fun _ => isDigit_of_mem_toDigits
  value := decimalValue_toDigits d.digits
  ne_nil := List.length_pos_iff.mpr Nat.toDigits_ne_nil
  zero := fun hhead => ⟨eq_zero_of_head?_toDigits hhead, length_toDigits_of_head? hhead⟩

namespace Spells

variable {ds : List Char}

theorem digits_take (h : Spells ds d) (n : Nat) : ∀ c ∈ ds.take n, isDigit c = true :=
  fun c hc => h.digits c (List.mem_of_mem_take hc)

theorem digits_drop (h : Spells ds d) (n : Nat) : ∀ c ∈ ds.drop n, isDigit c = true :=
  fun c hc => h.digits c (List.mem_of_mem_drop hc)

/-- All digits stand in front of the point, and zeros behind them. -/
theorem magnitude?_whole (h : Spells ds d) (hd : d.digits ≠ 0 ∨ d.place = 0)
    (hplace : 0 ≤ d.place) (hrest : Stops rest) :
    magnitude? ((ds ++ List.replicate d.place.toNat '0') ++ rest) = some (d.number, rest) := by
  have hnumber : Number.ofDecimal (decimalValue (ds ++ List.replicate d.place.toNat '0')) 0 =
      d.number := by
    change _ = Number.ofDecimal d.digits d.place
    rw [decimalValue_append_zeros, h.value, Number.ofDecimal_mul_pow]
    congr 1
    omega
  have hwhole : ∀ c ∈ ds ++ List.replicate d.place.toNat '0', isDigit c = true :=
    fun c hc => (List.mem_append.mp hc).elim (h.digits c) isDigit_of_mem_zeros
  have hsome : ds ≠ [] := List.length_pos_iff.mp h.ne_nil
  -- only the decimal zero starts with a zero, and its place is zero
  have hzero : (ds ++ List.replicate d.place.toNat '0').head? = some '0' →
      (ds ++ List.replicate d.place.toNat '0').length = 1 := by
    intro hhead
    rw [List.head?_append_of_ne_nil _ hsome] at hhead
    obtain ⟨hdzero, hone⟩ := h.zero hhead
    rw [List.length_append, hone, List.length_replicate,
      hd.resolve_left (fun hne => hne hdzero)]
    rfl
  rw [magnitude?_of_parts hwhole (List.append_ne_nil_of_left_ne_nil hsome _) hzero
    hrest.takeWhile hrest.fractionPart? hrest.exponentPart?, List.append_nil, ← hnumber]
  rfl

/-- The point stands inside the digits. -/
theorem magnitude?_inside (h : Spells ds d) {n : Nat} (hn : 0 < n) (hlt : n < ds.length)
    (hpoint : (n : Int) = ds.length + d.place) (hrest : Stops rest) :
    magnitude? (ds.take n ++ '.' :: (ds.drop n ++ rest)) = some (d.number, rest) := by
  have hfront : 0 < (ds.take n).length := by
    rw [List.length_take]
    omega
  have hback : 0 < (ds.drop n).length := by
    rw [List.length_drop]
    omega
  -- a zero in front stands alone in front of the point
  have hzero : (ds.take n).head? = some '0' → (ds.take n).length = 1 := by
    intro hhead
    rw [List.head?_take, if_neg (by omega)] at hhead
    rw [List.length_take, (h.zero hhead).2]
    omega
  rw [magnitude?_pointed (h.digits_take n) (h.digits_drop n) (List.length_pos_iff.mp hfront) hzero
    (List.length_pos_iff.mp hback) hrest.takeWhile hrest.exponentPart?, List.take_append_drop,
    h.value, List.length_drop]
  unfold Number.Decimal.number
  congr 3
  omega

/-- Zeros stand between the point and the digits. -/
theorem magnitude?_behind (h : Spells ds d) {n : Nat} (hpoint : -(n : Int) = ds.length + d.place)
    (hrest : Stops rest) :
    magnitude? ('0' :: '.' :: ((List.replicate n '0' ++ ds) ++ rest)) = some (d.number, rest) := by
  -- the zeros behind the point count as places, but not for the value
  have hback : 0 < (List.replicate n '0' ++ ds).length := by
    rw [List.length_append]
    have := h.ne_nil
    omega
  have hzero : ∀ c ∈ ['0'], isDigit c = true := fun c hc => List.mem_singleton.mp hc ▸ rfl
  have hplaces : ∀ c ∈ List.replicate n '0' ++ ds, isDigit c = true :=
    fun c hc => (List.mem_append.mp hc).elim isDigit_of_mem_zeros (h.digits c)
  have hread := magnitude?_pointed hzero hplaces
    (List.cons_ne_nil _ _) (fun _ => rfl) (List.length_pos_iff.mp hback) hrest.takeWhile
    hrest.exponentPart?
  have hvalue : decimalValue (['0'] ++ (List.replicate n '0' ++ ds)) = d.digits := by
    rw [← h.value]
    exact decimalValue_zeros_append (n + 1) ds
  refine hread.trans ?_
  rw [hvalue, List.length_append, List.length_replicate]
  unfold Number.Decimal.number
  congr 3
  push_cast
  omega

/-- The point stands behind the first digit, if there are others, and an exponent behind the last
one. -/
theorem magnitude?_scientific (h : Spells ds d) (hrest : Stops rest) :
    let exponent : Int := ds.length + d.place - 1
    magnitude? ((ds.take 1 ++ (if ds.length = 1 then [] else '.' :: ds.drop 1) ++ 'e' ::
      (if exponent < 0 then '-' else '+') :: Nat.toDigits 10 exponent.natAbs) ++ rest) =
        some (d.number, rest) := by
  intro exponent
  have hpos := h.ne_nil
  have hone : (ds.take 1).length = 1 := by
    rw [List.length_take]
    omega
  have hfirst : ds.take 1 ≠ [] := List.length_pos_iff.mp (by omega)
  have hexponent := exponentPart?_signed exponent hrest
  generalize (if exponent < 0 then '-' else '+') = sign at hexponent ⊢
  unfold Number.Decimal.number
  -- a single digit stands without a point
  by_cases hlength : ds.length = 1
  · rw [if_pos hlength, List.append_nil, List.append_assoc]
    refine (magnitude?_of_parts (h.digits_take 1) hfirst (fun _ => hone)
      (takeWhile_isDigit_mark _).2 rfl hexponent).trans ?_
    rw [List.append_nil, List.take_of_length_le hlength.le, h.value]
    congr 3
    rw [List.length_nil]
    omega
  · have hback : 0 < (ds.drop 1).length := by
      rw [List.length_drop]
      omega
    rw [if_neg hlength, List.append_assoc, List.append_assoc, List.cons_append]
    refine (magnitude?_pointed (h.digits_take 1) (h.digits_drop 1) hfirst (fun _ => hone)
      (List.length_pos_iff.mp hback) (takeWhile_isDigit_mark _).2 hexponent).trans ?_
    rw [List.take_append_drop, h.value, List.length_drop]
    congr 3
    omega

end Spells

/-- **Layouts are numerals.** Each of the four ways is read as the number nearest to the decimal. -/
theorem magnitude?_layout (hd : d.digits ≠ 0 ∨ d.place = 0) (h : Stops rest) :
    magnitude? ((Number.layout d).toList ++ rest) = some (d.number, rest) := by
  have hspells := spells_toDigits d
  have hpos := hspells.ne_nil
  unfold Number.layout
  dsimp only
  -- from here on only the number of digits and the place of the point matter
  generalize Nat.toDigits 10 d.digits = ds at hspells hpos ⊢
  by_cases hwhole : (ds.length : Int) ≤ ds.length + d.place ∧ ds.length + d.place ≤ 21
  · rw [if_pos hwhole, String.toList_ofList, add_sub_cancel_left]
    exact hspells.magnitude?_whole hd (by omega) h
  rw [if_neg hwhole]
  by_cases hpoint : (0 : Int) < ds.length + d.place ∧ ds.length + d.place ≤ 21
  · rw [if_pos hpoint, String.toList_ofList, List.append_assoc, List.cons_append]
    exact hspells.magnitude?_inside (by omega) (by omega) (by omega) h
  rw [if_neg hpoint]
  by_cases hsmall : (-6 : Int) < ds.length + d.place ∧ ds.length + d.place ≤ 0
  · rw [if_pos hsmall, String.toList_ofList, List.cons_append, List.cons_append]
    exact hspells.magnitude?_behind (by omega) h
  rw [if_neg hsmall, String.toList_ofList]
  exact hspells.magnitude?_scientific h

/-! ## The text of a number -/

/-- The number that the text of a positive number is read as. -/
def readBack (q : Rat) : Number :=
  if q.den = 1 ∧ q.num.natAbs ≤ Number.exactBound then .finite q else (Number.shortest q).number

theorem magnitude?_positiveText {q : Rat} (hq : 0 < q) (h : Stops rest) :
    magnitude? ((Number.positiveText q).toList ++ rest) = some (readBack q, rest) := by
  unfold Number.positiveText readBack
  by_cases hsmall : q.den = 1 ∧ q.num.natAbs ≤ Number.exactBound
  · have hnum : ((q.num.natAbs : Int) : Rat) = q := by
      rw [Int.natAbs_of_nonneg (Rat.num_nonneg.mpr hq.le)]
      exact (Rat.den_eq_one_iff q).mp hsmall.1
    rw [if_pos hsmall, if_pos hsmall]
    unfold Number.digitsText
    rw [String.toList_ofList, magnitude?_toDigits hsmall.2 h, hnum]
  · rw [if_neg hsmall, if_neg hsmall]
    refine magnitude?_layout ?_ h
    rcases Number.number_shortest q with hnumber | hnone
    · exact .inl (Number.Decimal.digits_ne_zero_of_number hq.ne' hnumber)
    · exact .inr (by rw [hnone.1])

theorem numberReadsAs_of_pos {q : Rat} (hq : 0 < q) : NumberReadsAs (.finite q) (readBack q) := by
  intro rest hrest
  have htext : (numberText (.finite q)).toList = (Number.positiveText q).toList := by
    change (Number.text (.finite q)).toList = _
    unfold Number.text
    dsimp only
    rw [if_neg hq.ne', if_neg hq.not_gt]
  rw [htext]
  exact word?_of_numeral? (numeral?_of_magnitude? (magnitude?_positiveText hq hrest))

theorem numberReadsAs_neg {q : Rat} (hq : 0 < q) : NumberReadsAs (.finite (-q)) (-readBack q) := by
  intro rest hrest
  have hneg : -q < 0 := neg_neg_of_pos hq
  have htext : (numberText (.finite (-q))).toList = '-' :: (Number.positiveText q).toList := by
    change (Number.text (.finite (-q))).toList = _
    unfold Number.text
    dsimp only
    rw [if_neg hneg.ne, if_pos hneg, Rat.neg_neg, String.toList_append]
    rfl
  rw [htext]
  exact word?_of_numeral? (numeral?_neg (magnitude?_positiveText hq hrest))

theorem legible_zero : Legible (.finite 0) := fun _ hrest =>
  word?_of_numeral? (numeral?_of_magnitude? (magnitude?_toDigits (n := 0) (Nat.zero_le _) hrest))

/-- **Every finite number is read as a number.** -/
theorem exists_numberReadsAs (q : Rat) : ∃ m, NumberReadsAs (.finite q) m := by
  rcases lt_trichotomy q 0 with hneg | rfl | hpos
  · have hread := numberReadsAs_neg (neg_pos.mpr hneg)
    rw [neg_neg] at hread
    exact ⟨_, hread⟩
  · exact ⟨_, legible_zero⟩
  · exact ⟨_, numberReadsAs_of_pos hpos⟩

/-! ## Whole numbers -/

/-- The decimal exponent of a whole number of seventeen digits. -/
theorem decimalExponent_le {n : Nat} (hpos : 0 < n) (hn : n < 10 ^ 17) :
    Number.decimalExponent (n : Int) ≤ 16 := by
  have hreached {e : Int} (h : (Number.Decimal.mk 1 e).value ≤ ((n : Int) : Rat)) : e ≤ 16 := by
    by_contra hlarge
    have hpower : 10 ^ 17 ≤ 10 ^ e.toNat := Nat.pow_le_pow_right (by decide) (by omega)
    unfold Number.Decimal.value at h
    rw [if_pos (by dsimp only; omega)] at h
    dsimp only at h
    have hle : 1 * Nat.pow 10 e.toNat ≤ n := by exact_mod_cast h
    have hle' : 10 ^ e.toNat ≤ n := by rwa [Nat.one_mul] at hle
    omega
  -- the estimate is taken from the length of the binary exponent
  have hbits : Number.binaryExponent ((n : Int) : Rat).num.natAbs ((n : Int) : Rat).den ≤ 56 := by
    rw [Rat.num_intCast, Rat.den_intCast, Int.natAbs_natCast, Number.binaryExponent_one hpos.ne']
    have hlog : n.log2 < 57 := (Nat.log2_lt hpos.ne').mpr (hn.trans (by decide))
    omega
  unfold Number.decimalExponent
  dsimp only
  rw [Int.fdiv_eq_ediv_of_nonneg _ (by decide)]
  split_ifs with h1 h2 h3
  · exact hreached (of_decide_eq_true h1)
  · exact hreached (of_decide_eq_true h2)
  · exact hreached (of_decide_eq_true h3)
  · omega

/-- **The digits of a whole number** are found on every grid that it lies on. -/
theorem onGrid?_ne_none {n : Nat} {place : Int} (hplace : place ≤ 0) (h : Number.Whole n) :
    Number.onGrid? (n : Int) place ≠ none := by
  obtain ⟨count, rfl⟩ : ∃ count : Nat, place = -(count : Int) := ⟨(-place).toNat, by omega⟩
  -- on a grid below the point the number is itself, with zeros behind it
  have hscaled : (if 0 ≤ -(count : Int)
        then ((n : Int) : Rat) / (Nat.pow 10 (-(count : Int)).toNat : Nat)
        else ((n : Int) : Rat) * (Nat.pow 10 (-(-(count : Int))).toNat : Nat)) =
      ((n * 10 ^ count : Nat) : Int) := by
    rcases Nat.eq_zero_or_pos count with rfl | hcount
    · change ((n : Int) : Rat) / ((1 : Nat) : Rat) = ((n * 1 : Nat) : Int)
      rw [Nat.mul_one, Nat.cast_one, div_one]
    · rw [if_neg (by omega), Int.neg_neg, Int.toNat_natCast]
      change ((n : Int) : Rat) * ((10 ^ count : Nat) : Rat) = _
      push_cast
      rfl
  -- so the candidate from below is the number, and it is found
  have hbelow : (Number.Decimal.mk (n * 10 ^ count) (-(count : Int))).number =
      .finite (n : Int) := by
    change Number.ofDecimal (n * 10 ^ count) (-(count : Int)) = _
    rw [Number.ofDecimal_mul_pow, Int.add_left_neg, Number.ofDecimal_zero]
    exact h
  unfold Number.onGrid?
  dsimp only
  rw [hscaled, Rat.floor_intCast, Int.toNat_natCast, hbelow, beq_self_eq_true]
  split
  · split_ifs <;> exact Option.some_ne_none _
  · exact Option.some_ne_none _
  · next heq _ => cases heq
  · next heq _ => cases heq

theorem readBack_of_whole {n : Nat} (hpos : 0 < n) (hn : n < 10 ^ 17) (h : Number.Whole n) :
    readBack (n : Int) = .finite (n : Int) := by
  unfold readBack
  split
  · rfl
  · -- the grid of seventeen digits has the number itself
    have hplace : Number.decimalExponent (n : Int) - (16 : Nat) ≤ 0 := by
      have := decimalExponent_le hpos hn
      omega
    refine (Number.number_shortest (n : Int)).resolve_right fun hnone => ?_
    exact onGrid?_ne_none hplace h (hnone.2 16 (by decide))

/-- **Whole numbers of seventeen digits are legible** if they are numbers at all. -/
theorem legible_of_whole {i : Int} (hi : i.natAbs < 10 ^ 17) (h : Number.Whole i) :
    Legible (.finite i) := by
  -- a negative number is read as the sign and its absolute value
  obtain ⟨n, rfl | rfl⟩ := i.eq_nat_or_neg
  · rw [Int.natAbs_natCast] at hi
    rcases Nat.eq_zero_or_pos n with rfl | hpos
    · exact legible_zero
    · have hread := numberReadsAs_of_pos (q := (n : Int)) (by exact_mod_cast hpos)
      rwa [readBack_of_whole hpos hi h] at hread
  · rw [Int.natAbs_neg, Int.natAbs_natCast] at hi
    rcases Nat.eq_zero_or_pos n with rfl | hpos
    · exact legible_zero
    · have hread := numberReadsAs_neg (q := (n : Int)) (by exact_mod_cast hpos)
      have hwhole := h.neg
      rw [Int.neg_neg] at hwhole
      rw [readBack_of_whole hpos hi hwhole] at hread
      rw [Rat.intCast_neg]
      exact hread

end Json

end BoundedJobs
