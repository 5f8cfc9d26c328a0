import BoundedJobs.Proofs.Capacity.Sizing
import BoundedJobs.Proofs.Json.Numerals
import Mathlib.Data.Nat.Digits.Defs

/-!
# The texts that give a cap

A cap is written as an optional plus sign and decimal digits, any number of them and with any number
of zeros in front. The digits are first made a number, which rounds, and only then compared with the
bounds. Nothing goes wrong in between: what is below `2 ^ 53` is not rounded at all, and what is not
below it stays there.

* `Json.digitChar` — the ten characters that are digits, and `Json.decimalValue_digitChars`, what a
  row of them stands for;
* `Capacity.Writes` — the language of the texts that write a natural number, with the number;
* `Capacity.override?_eq_some_iff` — an override is such a text whose number is in range, and it is
  worth that number.
-/

namespace BoundedJobs

namespace Json

/-- The character of a decimal digit. -/
def digitChar (digit : Fin 10) : Char := Nat.digitChar digit

theorem toNat_digitChar (digit : Fin 10) : (digitChar digit).toNat = '0'.toNat + digit := by
  decide +revert

/-- Ten characters are digits. -/
theorem isDigit_iff {c : Char} : isDigit c = true ↔ ∃ digit, digitChar digit = c := by
  constructor
  · intro h
    obtain ⟨hlow, hhigh⟩ : '0'.toNat ≤ c.toNat ∧ c.toNat ≤ '9'.toNat := by
      simpa [isDigit, Char.le_def, UInt32.le_iff_toNat_le] using h
    obtain ⟨digit, hdigit⟩ := Nat.exists_eq_add_of_le hlow
    have hten : digit < 10 := by
      have : '9'.toNat = '0'.toNat + 9 := rfl
      omega
    refine ⟨⟨digit, hten⟩, Char.toNat_inj.mp ?_⟩
    rw [toNat_digitChar, hdigit]
  · rintro ⟨digit, rfl⟩
    decide +revert

/-- The digits of a row count for their powers of ten, the last one for itself. -/
theorem decimalValue_digitChars (digits : List (Fin 10)) :
    decimalValue (digits.map digitChar) = Nat.ofDigits 10 (digits.reverse.map Fin.val) := by
  induction digits using List.reverseRecOn with
  | nil => rfl
  | append_singleton front digit ih =>
    rw [List.map_append, List.map_singleton, decimalValue_concat, toNat_digitChar,
      Nat.add_sub_cancel_left, ih, List.reverse_append, List.reverse_singleton,
      List.singleton_append, List.map_cons, Nat.ofDigits_cons]
    exact (Nat.add_comm _ _).trans (congrArg _ (Nat.mul_comm _ _))

theorem exists_digits {cs : List Char} (h : ∀ c ∈ cs, isDigit c = true) :
    ∃ digits : List (Fin 10), digits.map digitChar = cs := by
  induction cs with
  | nil => exact ⟨[], rfl⟩
  | cons c cs ih =>
    obtain ⟨hfirst, hothers⟩ := List.forall_mem_cons.mp h
    obtain ⟨digit, rfl⟩ := isDigit_iff.mp hfirst
    obtain ⟨digits, rfl⟩ := ih hothers
    exact ⟨digit :: digits, rfl⟩

end Json

namespace Capacity

open Json (digitChar)

variable {text : String} {value : Nat}

/-- **A text writes a natural number.** A plus sign or nothing, then at least one digit, and nothing
else; every digit counts for its power of ten. -/
def Writes (text : String) (value : Nat) : Prop :=
  ∃ digits : List (Fin 10), digits ≠ [] ∧
    (text.toList = digits.map digitChar ∨ text.toList = '+' :: digits.map digitChar) ∧
    value = Nat.ofDigits 10 (digits.reverse.map Fin.val)

/-- A row of digits is what `digits?` looks for, with a plus sign in front or without. -/
theorem digits?_eq_some_iff {cs : List Char} :
    digits? text = some cs ↔
      (text.toList = cs ∨ text.toList = '+' :: cs) ∧ cs ≠ [] ∧ ∀ c ∈ cs, Json.isDigit c = true := by
  -- without its sign the text must be a row of digits
  have hrow : ∀ row : List Char,
      (if !row.isEmpty && row.all Json.isDigit then some row else none) = some cs ↔
        row = cs ∧ cs ≠ [] ∧ ∀ c ∈ cs, Json.isDigit c = true := by
    intro row
    rw [Option.ite_none_right_eq_some]
    constructor
    · rintro ⟨h, heq⟩
      obtain rfl := Option.some.inj heq
      simpa using h
    · rintro ⟨rfl, h⟩
      simpa using h
  unfold digits?
  dsimp only
  rw [hrow]
  split
  · next rest hplus =>
    rw [hplus]
    refine and_congr_left fun ⟨_, hdigits⟩ => ?_
    constructor
    · rintro rfl
      exact Or.inr rfl
    · rintro (rfl | heq)
      · -- a sign is no digit, so it was the sign that was taken off
        exact absurd (hdigits '+' List.mem_cons_self) (by decide)
      · exact (List.cons.inj heq).2
  · next whole hplus =>
    refine and_congr_left fun _ => ⟨Or.inl, fun h => h.resolve_right fun heq => ?_⟩
    exact hplus cs heq

/-- The texts that write a natural number, as they are read. -/
theorem writes_iff :
    Writes text value ↔ ∃ cs, digits? text = some cs ∧ Json.decimalValue cs = value := by
  constructor
  · rintro ⟨digits, hsome, htext, rfl⟩
    refine ⟨digits.map digitChar, digits?_eq_some_iff.mpr ⟨htext, ?_, ?_⟩,
      Json.decimalValue_digitChars digits⟩
    · exact fun hnil => hsome (List.map_eq_nil_iff.mp hnil)
    · intro c hc
      obtain ⟨digit, -, hdigit⟩ := List.mem_map.mp hc
      exact Json.isDigit_iff.mpr ⟨digit, hdigit⟩
  · rintro ⟨cs, hcs, rfl⟩
    obtain ⟨htext, hsome, hdigits⟩ := digits?_eq_some_iff.mp hcs
    obtain ⟨digits, rfl⟩ := Json.exists_digits hdigits
    refine ⟨digits, fun hnil => hsome (by rw [hnil]; rfl), htext, ?_⟩
    exact Json.decimalValue_digitChars digits

theorem wanted?_eq_some_iff :
    wanted? text = some value ↔ Writes text value ∧ 1 ≤ value ∧ value ≤ 2 ^ 53 - 1 := by
  unfold wanted?
  rw [Option.bind_eq_some_iff, writes_iff]
  constructor
  · rintro ⟨cs, hcs, h⟩
    obtain ⟨⟨hlow, hhigh⟩, heq⟩ := Option.ite_none_right_eq_some.mp h
    obtain rfl := Option.some.inj heq
    exact ⟨⟨cs, hcs, rfl⟩, hlow, by omega⟩
  · rintro ⟨⟨cs, hcs, rfl⟩, hlow, hhigh⟩
    exact ⟨cs, hcs, if_pos ⟨hlow, by omega⟩⟩

/-- **The language of overrides.** -/
theorem override?_eq_some_iff {n : Number} :
    override? text = some n ↔
      ∃ value : Nat, Writes text value ∧ 1 ≤ value ∧ value ≤ 2 ^ 53 - 1 ∧ n = .finite value := by
  rw [override?_eq, Option.map_eq_some_iff]
  constructor
  · rintro ⟨value, hvalue, rfl⟩
    obtain ⟨hwrites, hlow, hhigh⟩ := wanted?_eq_some_iff.mp hvalue
    exact ⟨value, hwrites, hlow, hhigh, Number.ofNat_of_le (by change _ ≤ 2 ^ 53; omega)⟩
  · rintro ⟨value, hwrites, hlow, hhigh, rfl⟩
    exact ⟨value, wanted?_eq_some_iff.mpr ⟨hwrites, hlow, hhigh⟩,
      Number.ofNat_of_le (by change _ ≤ 2 ^ 53; omega)⟩

end Capacity
end BoundedJobs
