import BoundedJobs.Json.Text
import BoundedJobs.Json.Token
import BoundedJobs.Proofs.Decimal
import Mathlib.Tactic.SplitIfs

/-!
# What is written is read as one token

A string between quotes is read as the string, whatever characters it has, and the parts of a
numeral are read as its number if nothing behind them lengthens the numeral.

* `Json.stringBody?_escaped`, `Json.ofCodes_toNat`, `Json.front?_quotedChars` — strings;
* `Json.Stops` — a text that lengthens no numeral in front of it;
* `Json.magnitude?_of_parts` — the digits, the fraction and the exponent of a numeral;
* `Json.NumberReadsAs`, `Json.Legible` — a number whose text is read as a number, or as itself;
* `Json.scan_append` — a token at the front of a text is followed by the tokens of the rest.
-/

namespace BoundedJobs

namespace Json

variable {c : Char} {cs chars rest : List Char} {letters : List Letter} {token : Token}
  {tokens : List Token} {value : Json Text} {code : Nat}

/-! ## Letters -/

theorem run_append (cs : List Char) (letters : List Letter) :
    Letter.run (cs.map .char ++ letters) = cs ++ Letter.run letters := by
  induction cs with
  | nil => rfl
  | cons c cs ih => exact congrArg (c :: ·) ih

/-- A text is its characters in front of the first half, and the rest. -/
theorem map_run_append (letters : List Letter) :
    (Letter.run letters).map .char ++ letters.drop (Letter.run letters).length = letters := by
  induction letters with
  | nil => rfl
  | cons letter letters ih =>
    cases letter with
    | char c => exact congrArg (Letter.char c :: ·) ih
    | half => rfl

/-- No character is half of a pair. -/
theorem not_isSurrogate (c : Char) :
    Letter.isHighSurrogate c.toNat = false ∧ Letter.isLowSurrogate c.toNat = false := by
  -- the surrogates are the gap between the two ranges of characters
  have hvalid : c.toNat < 0xD800 ∨ 0xDFFF < c.toNat ∧ c.toNat < 0x110000 := c.valid
  unfold Letter.isHighSurrogate Letter.isLowSurrogate
  simp only [Bool.and_eq_false_iff, decide_eq_false_iff_not]
  omega

theorem ofCode_toNat (c : Char) : Letter.ofCode c.toNat = .char c := by
  unfold Letter.ofCode
  rw [(not_isSurrogate c).1, (not_isSurrogate c).2, if_neg Bool.false_ne_true,
    if_neg Bool.false_ne_true, Char.ofNat_toNat]

theorem joined_toNat (cs : List Char) : Letter.joined (cs.map Char.toNat) = cs.map .char := by
  induction cs with
  | nil => rfl
  | cons c cs ih =>
    cases cs with
    | nil => exact congrArg ([·]) (ofCode_toNat c)
    | cons d cs =>
      -- two codes are joined only if the first of them is a high surrogate
      rw [List.map_cons, List.map_cons, Letter.joined, (not_isSurrogate c).1]
      rw [List.map_cons] at ih
      rw [ih, ofCode_toNat]
      rfl

/-- The codes of characters are those of the text that is made of them. -/
theorem ofCodes_toNat (s : String) : Text.ofCodes (s.toList.map Char.toNat) = .ofString s := by
  unfold Text.ofCodes Text.ofString
  simp only [joined_toNat]

/-! ## Strings -/

theorem hexUnit?_hexDigit :
    ∀ n < 0x20, hexUnit? '0' '0' (hexDigit (n / 16)) (hexDigit (n % 16)) = some n := by
  decide

/-- An escape of two characters is one code. -/
theorem stringBody?_letter (hletter : c ≠ 'u') (h : letterEscape? c = some code) :
    stringBody? (.char '\\' :: .char c :: letters)
      = (stringBody? letters).map (Prod.map (code :: ·) id) := by
  rw [stringBody?.eq_4 _ _ fun _ _ _ _ _ _ hu => hletter hu, h]
  cases stringBody? letters <;> rfl

/-- An escape of six characters is one code, too. -/
theorem stringBody?_hex {a b d e : Char} (h : hexUnit? a b d e = some code) :
    stringBody? (.char '\\' :: .char 'u' :: .char a :: .char b :: .char d :: .char e :: letters) =
      (stringBody? letters).map (Prod.map (code :: ·) id) := by
  rw [stringBody?.eq_3, h]
  cases stringBody? letters <;> rfl

/-- Other letters stand for themselves. -/
theorem stringBody?_plain {letter : Letter} (hquote : letter ≠ .char '"')
    (hslash : letter ≠ .char '\\') (hcontrol : ¬ letter.code < 0x20) :
    stringBody? (letter :: letters)
      = (stringBody? letters).map (Prod.map (letter.code :: ·) id) := by
  rw [stringBody?.eq_5 _ _ hquote (fun _ _ _ _ _ h _ => hslash h) (fun _ _ h _ => hslash h),
    if_neg (not_or.mpr ⟨hcontrol, hslash⟩)]
  cases stringBody? letters <;> rfl

/-- **One character.** Its code comes back, whichever way it was written. -/
theorem stringBody?_escaped (c : Char) (letters : List Letter) :
    stringBody? ((escaped c).map .char ++ letters)
      = (stringBody? letters).map (Prod.map (c.toNat :: ·) id) := by
  unfold escaped
  -- a letter for the quote, the slash and five controls, a code for the other controls
  split_ifs with hquote hslash hb hf hn hr ht hcontrol
  · subst hquote
    exact stringBody?_letter (by decide) rfl
  · subst hslash
    exact stringBody?_letter (by decide) rfl
  · subst hb
    exact stringBody?_letter (by decide) rfl
  · subst hf
    exact stringBody?_letter (by decide) rfl
  · subst hn
    exact stringBody?_letter (by decide) rfl
  · subst hr
    exact stringBody?_letter (by decide) rfl
  · subst ht
    exact stringBody?_letter (by decide) rfl
  · exact stringBody?_hex (hexUnit?_hexDigit _ hcontrol)
  · have hplain : Letter.char c ≠ .char '"' := fun h => hquote (Letter.char.inj h)
    exact stringBody?_plain hplain (fun h => hslash (Letter.char.inj h)) hcontrol

theorem stringBody?_flatMap (cs : List Char) (rest : List Letter) :
    stringBody? ((cs.flatMap escaped).map .char ++ .char '"' :: rest)
      = some (cs.map Char.toNat, rest) := by
  induction cs with
  | nil => rfl
  | cons c cs ih =>
    rw [List.flatMap_cons, List.map_append, List.append_assoc, stringBody?_escaped, ih]
    rfl

/-- A string of characters is written character by character. -/
theorem quotedChars_eq (s : String) :
    quotedChars s = '"' :: (s.toList.flatMap escaped ++ ['"']) := by
  unfold quotedChars
  change '"' :: (s.toList.map Letter.char).flatMap spelled ++ ['"'] = _
  rw [List.flatMap_map]
  rfl

/-- **Strings.** The text between the quotes comes back. -/
theorem front?_quotedChars (s : String) (rest : List Letter) :
    Token.front? ((quotedChars s).map .char ++ rest) = some (.string (.ofString s), rest) := by
  rw [quotedChars_eq, List.map_cons, List.map_append, List.cons_append, List.append_assoc]
  change (stringBody? ((s.toList.flatMap escaped).map .char ++ .char '"' :: rest)).map _ = _
  rw [stringBody?_flatMap, Option.map_some]
  dsimp only
  rw [ofCodes_toNat]

/-! ## Numbers -/

/-- **A text that lengthens no numeral in front of it.** -/
def Stops : List Char → Prop
  | [] => True
  | c :: _ => isDigit c = false ∧ c ≠ '.' ∧ c ≠ 'e' ∧ c ≠ 'E'

theorem Stops.takeWhile (h : Stops rest) : rest.takeWhile isDigit = [] := by
  cases rest with
  | nil => rfl
  | cons c cs => exact List.takeWhile_cons_of_neg (by simp [h.1])

/-- Digits and what is behind them are told apart. -/
theorem takeWhile_digits {digits behind : List Char} (hdigits : ∀ c ∈ digits, isDigit c = true)
    (hbehind : behind.takeWhile isDigit = []) :
    (digits ++ behind).takeWhile isDigit = digits := by
  rw [List.takeWhile_append_of_pos hdigits, hbehind, List.append_nil]

theorem dropWhile_digits {digits behind : List Char} (hdigits : ∀ c ∈ digits, isDigit c = true)
    (hbehind : behind.takeWhile isDigit = []) :
    (digits ++ behind).dropWhile isDigit = behind := by
  rw [List.dropWhile_append_of_pos hdigits]
  cases behind with
  | nil => rfl
  | cons c cs =>
    refine List.dropWhile_cons_of_neg fun hc => ?_
    rw [List.takeWhile_cons_of_pos hc] at hbehind
    cases hbehind

theorem Stops.fractionPart? (h : Stops rest) : fractionPart? rest = some ([], rest) := by
  unfold Json.fractionPart?
  split
  · exact absurd rfl h.2.1
  · rfl

theorem Stops.exponentPart? (h : Stops rest) : exponentPart? rest = some (0, rest) := by
  unfold Json.exponentPart?
  split
  · exact absurd rfl h.2.2.1
  · exact absurd rfl h.2.2.2
  · rfl

theorem isDigit_of_mem_toDigits {n : Nat} (h : c ∈ Nat.toDigits 10 n) : isDigit c = true :=
  Nat.isDigit_of_mem_toDigits (by decide) (by decide) h

/-- Only zero is written with a zero in front. -/
theorem eq_zero_of_head?_toDigits {n : Nat} (h : (Nat.toDigits 10 n).head? = some '0') :
    n = 0 := by
  induction n using Nat.strongRecOn with
  | ind n ih =>
    rcases Nat.lt_or_ge n 10 with hlt | hge
    · rw [Nat.toDigits_of_lt_base hlt] at h
      have hdigit : ∀ n < 10, Nat.digitChar n = '0' → n = 0 := by decide
      exact hdigit n hlt (Option.some.inj h)
    · -- the first digit is that of the tenth part, which is not zero
      have hfirst : (Nat.toDigits 10 (n / 10)).head? = some '0' := by
        rw [Nat.toDigits_of_base_le (by decide) hge, List.head?_append,
          List.head?_eq_some_head Nat.toDigits_ne_nil] at h
        rwa [List.head?_eq_some_head Nat.toDigits_ne_nil]
      have := ih (n / 10) (by omega) hfirst
      omega

theorem decimalValue_toDigits (n : Nat) : decimalValue (Nat.toDigits 10 n) = n := by
  calc decimalValue (Nat.toDigits 10 n)
      = Nat.ofDigitChars 10 (Nat.toDigits 10 n) 0 := by
        unfold decimalValue Nat.ofDigitChars
        simp only [Nat.mul_comm]
    _ = n := Nat.ofDigitChars_ten_toDigits

/-- **The parts of a numeral.** Digits with no zero in front of others, then a fraction and an
exponent as far as there are any. -/
theorem magnitude?_of_parts {whole behind fraction later : List Char} {exponent : Int}
    (hdigits : ∀ c ∈ whole, isDigit c = true) (hsome : whole ≠ [])
    (hzero : whole.head? = some '0' → whole.length = 1) (hbehind : behind.takeWhile isDigit = [])
    (hfraction : fractionPart? behind = some (fraction, later))
    (hexponent : exponentPart? later = some (exponent, rest)) :
    magnitude? (whole ++ behind) =
      some (Number.ofDecimal (decimalValue (whole ++ fraction)) (exponent - fraction.length),
        rest) := by
  have hshape : (whole.isEmpty || (whole.head? == some '0' && whole.length != 1)) = false := by
    rw [Bool.or_eq_false_iff, List.isEmpty_eq_false_iff, Bool.and_eq_false_imp, beq_iff_eq]
    exact ⟨hsome, fun hhead => by rw [hzero hhead]; rfl⟩
  unfold magnitude?
  dsimp only
  rw [takeWhile_digits hdigits hbehind, dropWhile_digits hdigits hbehind, hshape,
    if_neg Bool.false_ne_true, hfraction]
  change (exponentPart? later).bind _ = _
  rw [hexponent]
  rfl

/-- No zero stands in front of the other digits of a number. -/
theorem length_toDigits_of_head? {n : Nat} (h : (Nat.toDigits 10 n).head? = some '0') :
    (Nat.toDigits 10 n).length = 1 := by
  rw [eq_zero_of_head?_toDigits h]
  rfl

theorem magnitude?_toDigits {n : Nat} (hn : n ≤ Number.exactBound) (h : Stops rest) :
    magnitude? (Nat.toDigits 10 n ++ rest) = some (.finite (n : Int), rest) := by
  rw [magnitude?_of_parts (fun c => isDigit_of_mem_toDigits) Nat.toDigits_ne_nil
    length_toDigits_of_head? h.takeWhile h.fractionPart? h.exponentPart?]
  change some (Number.ofDecimal (decimalValue (Nat.toDigits 10 n ++ [])) 0, rest) = _
  rw [List.append_nil, decimalValue_toDigits, Number.ofDecimal_zero]
  exact congrArg (fun number => some (number, rest)) (Number.Whole.of_le hn)

/-- An unsigned number is a number. -/
theorem numeral?_of_magnitude? {n : Number} (h : magnitude? cs = some (n, rest)) :
    numeral? cs = some (n, rest) := by
  unfold numeral?
  split
  · -- no digit is a sign
    cases h
  · exact h

theorem numeral?_eq_none (hdigit : isDigit c = false) (hminus : c ≠ '-') :
    numeral? (c :: cs) = none := by
  unfold numeral?
  split
  · next heq => exact absurd (List.cons.inj heq).1 hminus
  · unfold magnitude?
    dsimp only
    rw [List.takeWhile_cons_of_neg (by simp [hdigit])]
    rfl

/-- A numeral is no name. -/
theorem word?_of_numeral? {n : Number} (h : numeral? cs = some (n, rest)) :
    word? cs = some (.number n, rest) := by
  unfold word?
  split
  case h_4 => rw [h]; rfl
  all_goals
    rw [numeral?_eq_none (by decide) (by decide)] at h
    cases h

/-- **A number whose text is read as a number.** -/
def NumberReadsAs (n m : Number) : Prop :=
  ∀ rest, Stops rest → word? ((numberText n).toList ++ rest) = some (.number m, rest)

/-- **A number whose text is read as the number itself.** -/
def Legible (n : Number) : Prop := NumberReadsAs n n

theorem numeral?_neg {n : Number} (h : magnitude? cs = some (n, rest)) :
    numeral? ('-' :: cs) = some (-n, rest) := by
  change (magnitude? cs).map _ = _
  rw [h]
  rfl

/-! ## The tokens of a text -/

/-- What starts with neither a digit nor a minus is no number. -/
theorem word?_eq_none (hdigit : isDigit c = false) (hminus : c ≠ '-')
    (hname : c ≠ 'n' ∧ c ≠ 't' ∧ c ≠ 'f') : word? (c :: cs) = none := by
  unfold word?
  split
  · next heq => exact absurd (List.cons.inj heq).1 hname.1
  · next heq => exact absurd (List.cons.inj heq).1 hname.2.1
  · next heq => exact absurd (List.cons.inj heq).1 hname.2.2
  · rw [numeral?_eq_none hdigit hminus]
    rfl

/-- **A word at the front of a text** is looked for among its characters. -/
theorem front?_of_word? {rest : List Letter}
    (h : word? (cs ++ Letter.run rest) = some (value, Letter.run rest)) :
    Token.front? (cs.map .char ++ rest) = some (.scalar value, rest) := by
  have hrun := run_append cs rest
  have hword : word? (Letter.run (cs.map .char ++ rest)) = some (value, Letter.run rest) := by
    rw [hrun, h]
  unfold Token.front?
  split
  case h_8 =>
    simp only [hword, Option.map_some]
    rw [hrun, List.length_append, ← List.drop_drop, List.drop_left' (List.length_map _),
      map_run_append]
  -- no word starts with a mark
  all_goals
    next heq =>
    rw [heq] at hword
    change word? (_ :: _) = _ at hword
    rw [word?_eq_none (by decide) (by decide) (by decide)] at hword
    cases hword

theorem front?_eq_none_of_isBlank {letter : Letter} (h : isBlank letter = true) :
    Token.front? (letter :: letters) = none := by
  unfold isBlank at h
  split at h
  · next c =>
    simp only [Bool.or_eq_true, decide_eq_true_eq] at h
    -- a blank starts no number and no name
    have hword : word? (c :: Letter.run letters) = none := by
      refine word?_eq_none ?_ ?_ ?_ <;> rcases h with ((rfl | rfl) | rfl) | rfl <;> decide
    unfold Token.front?
    split
    case h_8 =>
      change (word? (c :: Letter.run letters)).map _ = none
      rw [hword]
      rfl
    -- nor is it one of the marks
    all_goals
      next heq =>
      rw [Letter.char.inj (List.cons.inj heq).1] at h
      exact absurd h (by decide)
  · cases h

theorem scanWithin_add {fuel : Nat} (more : Nat)
    (h : Token.scanWithin fuel letters = some tokens) :
    Token.scanWithin (fuel + more) letters = some tokens := by
  -- the fuel counts letters, and each of them was enough for what is left of the text
  induction fuel generalizing letters tokens with
  | zero =>
    cases letters with
    | nil => rw [← h]; cases more <;> rfl
    | cons letter letters => cases h
  | succ fuel ih =>
    rw [Nat.add_right_comm]
    cases letters with
    | nil => exact h
    | cons letter letters =>
      unfold Token.scanWithin at h ⊢
      split at h
      · next hblank =>
        rw [if_pos hblank]
        exact ih h
      · next hblank =>
        obtain ⟨⟨token, behind⟩, hfront, h⟩ := Option.bind_eq_some_iff.mp h
        obtain ⟨others, hothers, h⟩ := Option.bind_eq_some_iff.mp h
        rw [if_neg hblank, hfront]
        change (Token.scanWithin (fuel + more) behind).bind _ = _
        rw [ih hothers]
        exact h

/-- **A token at the front of a text.** The rest of the text is read as if it stood alone. -/
theorem scan_append {letter : Letter} (letters : List Letter) {rest : List Letter}
    (hfront : Token.front? (letter :: letters ++ rest) = some (token, rest))
    (hscan : Token.scan rest = some tokens) :
    Token.scan (letter :: letters ++ rest) = some (token :: tokens) := by
  have hblank : ¬ isBlank letter = true := by
    intro h
    rw [List.cons_append, front?_eq_none_of_isBlank h] at hfront
    cases hfront
  -- what is left of the fuel is more than the rest needs
  have hrest : Token.scanWithin (letters ++ rest).length rest = some tokens := by
    rw [List.length_append, Nat.add_comm]
    exact scanWithin_add _ hscan
  change Token.scanWithin ((letters ++ rest).length + 1) (letter :: (letters ++ rest)) = _
  unfold Token.scanWithin
  rw [if_neg hblank, ← List.cons_append, hfront]
  change (Token.scanWithin (letters ++ rest).length rest).bind _ = _
  rw [hrest]
  rfl

end Json

end BoundedJobs
