import BoundedJobs.Proofs.Decimal
import BoundedJobs.Proofs.Json.Numerals
import Mathlib.Data.List.TakeWhile
import Mathlib.Tactic.FieldSimp

/-!
# The words of JSON

A JSON text is put together from marks, strings, numbers and three names. How each of them may be
written is said here without the reader: by tables for the escapes of a string, and by the parts of
a numeral, whose value is a rational that is rounded once. A token that is read from the front of a
text was written in one of these ways, and whatever is written in one of them is read as that token,
if nothing behind it lengthens a numeral.

* `Json.WritesCode`, `Json.WritesString` — a code inside a string, and a whole string;
* `Json.WritesMagnitude`, `Json.WritesNumber` — the rational of an unsigned numeral, and a number;
* `Json.Word`, `Json.Lexeme` — names and numbers, and all tokens;
* `Json.stringBody?_eq_some_iff`, `Json.exists_of_magnitude?`, `Json.magnitude?_of_writes` — strings
  and numerals at the front of a text;
* `Json.WritesNumber.exact`, `Json.WritesNumber.ne_nan` — what is written as a number was rounded
  once, and is a number;
* `Json.lexeme_of_front?`, `Json.front?_of_lexeme` — so are all tokens.
-/

namespace BoundedJobs

namespace Json

variable {c : Char} {cs chars more rest digits : List Char} {letters : List Letter} {code : Nat}
  {codes : List Nat} {exponent : Int} {q : Rat} {n : Number} {token : Token} {value : Json Text}

/-! ## Strings -/

/-- The letters behind a backslash, with the codes that they stand for. -/
def letterCodes : List (Char × Nat) :=
  [('"', 0x22), ('\\', 0x5C), ('/', 0x2F), ('b', 8), ('f', 12), ('n', 10), ('r', 13), ('t', 9)]

/-- The digits of the base sixteen, with their values. -/
def hexDigits : List (Char × Nat) :=
  "0123456789abcdef".toList.zipIdx ++ "ABCDEF".toList.zipIdx 10

/-- **How a code is written inside a string**: by a letter that is neither the quote nor the
backslash nor a control character, by a letter behind a backslash, or by its four digits. -/
inductive WritesCode : List Letter → Nat → Prop
  | plain {letter : Letter} (control : 0x20 ≤ letter.code) (quote : letter ≠ .char '"')
      (slash : letter ≠ .char '\\') : WritesCode [letter] letter.code
  | letter {c : Char} {code : Nat} (letter : (c, code) ∈ letterCodes) :
      WritesCode [.char '\\', .char c] code
  | digits {a b c d : Char} {i j k l : Nat} (first : (a, i) ∈ hexDigits)
      (second : (b, j) ∈ hexDigits) (third : (c, k) ∈ hexDigits) (fourth : (d, l) ∈ hexDigits) :
      WritesCode (['\\', 'u', a, b, c, d].map .char) (((i * 16 + j) * 16 + k) * 16 + l)

/-- Codes one after the other. -/
inductive WritesCodes : List Letter → List Nat → Prop
  | nil : WritesCodes [] []
  | cons {letters more : List Letter} {code : Nat} {codes : List Nat}
      (first : WritesCode letters code) (others : WritesCodes more codes) :
      WritesCodes (letters ++ more) (code :: codes)

/-- **How a string is written**: its codes between quotes. -/
def WritesString (letters : List Letter) (s : Text) : Prop :=
  ∃ inside codes, letters = .char '"' :: (inside ++ [.char '"']) ∧ WritesCodes inside codes ∧
    s = .ofCodes codes

theorem letterEscape?_eq_some_iff : letterEscape? c = some code ↔ (c, code) ∈ letterCodes := by
  constructor
  · intro h
    unfold letterEscape? at h
    split at h
    · next hself =>
      cases h
      rcases hself with rfl | rfl | rfl <;> decide
    · -- the other letters are tried one after the other
      repeat' split at h
      all_goals
        cases h
        try subst c
        try decide
  · have hletters : ∀ entry ∈ letterCodes, letterEscape? entry.1 = some entry.2 := by decide
    exact hletters _

theorem hexValue?_eq_some_iff : hexValue? c = some code ↔ (c, code) ∈ hexDigits := by
  constructor
  · intro h
    have hbound : c.toNat < 128 := by
      unfold hexValue? at h
      split at h
      · next hrange => exact lt_of_le_of_lt (show c.toNat ≤ 57 from hrange.2) (by decide)
      split at h
      · next hrange => exact lt_of_le_of_lt (show c.toNat ≤ 102 from hrange.2) (by decide)
      split at h
      · next hrange => exact lt_of_le_of_lt (show c.toNat ≤ 70 from hrange.2) (by decide)
      · cases h
    -- so all characters that have a value can be tried
    have hall : ∀ point < 128, ∀ value ∈ hexValue? (Char.ofNat point),
        (Char.ofNat point, value) ∈ hexDigits := by decide
    rw [← Char.ofNat_toNat c] at h ⊢
    exact hall c.toNat hbound code h
  · have hdigits : ∀ entry ∈ hexDigits, hexValue? entry.1 = some entry.2 := by decide
    exact hdigits _

theorem hexUnit?_eq_some_iff {a b c d : Char} :
    hexUnit? a b c d = some code ↔ ∃ i j k l, (a, i) ∈ hexDigits ∧ (b, j) ∈ hexDigits ∧
      (c, k) ∈ hexDigits ∧ (d, l) ∈ hexDigits ∧ ((i * 16 + j) * 16 + k) * 16 + l = code := by
  simp only [← hexValue?_eq_some_iff]
  unfold hexUnit?
  simp only [bind, Option.bind_eq_some_iff, pure, Option.some.injEq, exists_and_left]

/-- A code in front of others. -/
theorem stringBody?_of_code (h : WritesCode letters code) (behind : List Letter) :
    stringBody? (letters ++ behind) = (stringBody? behind).map (Prod.map (code :: ·) id) := by
  cases h with
  | plain control quote slash => exact stringBody?_plain quote slash (Nat.not_lt.mpr control)
  | letter hletter =>
    refine stringBody?_letter ?_ (letterEscape?_eq_some_iff.mpr hletter)
    rintro rfl
    exact absurd (letterEscape?_eq_some_iff.mpr hletter) (by simp [letterEscape?])
  | digits first second third fourth =>
    exact stringBody?_hex (hexUnit?_eq_some_iff.mpr ⟨_, _, _, _, first, second, third, fourth, rfl⟩)

/-- **The inside of a string** and what is behind its closing quote. -/
theorem stringBody?_eq_some_iff {rest : List Letter} :
    stringBody? letters = some (codes, rest) ↔
      ∃ inside, letters = inside ++ .char '"' :: rest ∧ WritesCodes inside codes := by
  constructor
  · intro h
    induction letters using stringBody?.induct generalizing codes with
    | case1 => cases h
    | case2 later =>
      cases h
      exact ⟨[], rfl, .nil⟩
    | case3 a b c d later ih =>
      -- an escape of six characters
      rw [stringBody?.eq_3] at h
      obtain ⟨code, hcode, h⟩ := Option.bind_eq_some_iff.mp h
      obtain ⟨⟨others, behind⟩, hothers, h⟩ := Option.bind_eq_some_iff.mp h
      cases h
      obtain ⟨inside, rfl, hinside⟩ := ih hothers
      obtain ⟨i, j, k, l, hi, hj, hk, hl, rfl⟩ := hexUnit?_eq_some_iff.mp hcode
      exact ⟨_, rfl, .cons (.digits hi hj hk hl) hinside⟩
    | case4 c later hdigits ih =>
      -- an escape of two characters
      rw [stringBody?.eq_4 _ _ hdigits] at h
      obtain ⟨code, hcode, h⟩ := Option.bind_eq_some_iff.mp h
      obtain ⟨⟨others, behind⟩, hothers, h⟩ := Option.bind_eq_some_iff.mp h
      cases h
      obtain ⟨inside, rfl, hinside⟩ := ih hothers
      exact ⟨_, rfl, .cons (.letter (letterEscape?_eq_some_iff.mp hcode)) hinside⟩
    | case5 letter later hquote hdigits hescape hrefused =>
      rw [stringBody?.eq_5 _ _ hquote hdigits hescape, if_pos hrefused] at h
      cases h
    | case6 letter later hquote hdigits hescape hplain ih =>
      -- a letter that stands for itself
      rw [stringBody?.eq_5 _ _ hquote hdigits hescape, if_neg hplain] at h
      obtain ⟨⟨others, behind⟩, hothers, h⟩ := Option.bind_eq_some_iff.mp h
      cases h
      obtain ⟨inside, rfl, hinside⟩ := ih hothers
      obtain ⟨hcontrol, hslash⟩ := not_or.mp hplain
      exact ⟨_, rfl, .cons (.plain (Nat.not_lt.mp hcontrol) hquote hslash) hinside⟩
  · rintro ⟨inside, rfl, hinside⟩
    induction hinside with
    | nil => rfl
    | cons first _ ih =>
      rw [List.append_assoc, stringBody?_of_code first, ih]
      rfl

/-! ## Numbers -/

/-- Decimal digits, and at least one. -/
structure Digits (chars : List Char) : Prop where
  some : chars ≠ []
  all : ∀ c ∈ chars, isDigit c = true

/-- The digits behind the point of a numeral, none without a point. -/
inductive WritesFraction : List Char → List Char → Prop
  | none : WritesFraction [] []
  | point {digits : List Char} (h : Digits digits) : WritesFraction ('.' :: digits) digits

/-- The exponent of a numeral, zero without a mark for it. -/
inductive WritesExponent : List Char → Int → Prop
  | none : WritesExponent [] 0
  | unsigned {mark : Char} {digits : List Char} (hmark : mark = 'e' ∨ mark = 'E')
      (h : Digits digits) : WritesExponent (mark :: digits) (decimalValue digits)
  | plus {mark : Char} {digits : List Char} (hmark : mark = 'e' ∨ mark = 'E')
      (h : Digits digits) : WritesExponent (mark :: '+' :: digits) (decimalValue digits)
  | minus {mark : Char} {digits : List Char} (hmark : mark = 'e' ∨ mark = 'E')
      (h : Digits digits) : WritesExponent (mark :: '-' :: digits) (-(decimalValue digits : Int))

/-- **The rational that an unsigned numeral stands for.** No zero stands in front of the other
digits of its whole part. -/
inductive WritesMagnitude : List Char → Rat → Prop
  | parts {whole point fraction mark : List Char} {exponent : Int} (hwhole : Digits whole)
      (hzero : whole.head? = some '0' → whole.length = 1)
      (hfraction : WritesFraction point fraction) (hexponent : WritesExponent mark exponent) :
      WritesMagnitude (whole ++ (point ++ mark))
        ((decimalValue whole + decimalValue fraction / 10 ^ fraction.length) * 10 ^ exponent)

/-- **How a number is written**: by a numeral whose rational it is nearest to. -/
inductive WritesNumber : List Char → Number → Prop
  | unsigned {chars : List Char} {q : Rat} (h : WritesMagnitude chars q) :
      WritesNumber chars (Number.nearest q)
  | minus {chars : List Char} {q : Rat} (h : WritesMagnitude chars q) :
      WritesNumber ('-' :: chars) (Number.nearest (-q))

namespace WritesNumber

theorem exists_nearest (h : WritesNumber chars n) : ∃ q, n = Number.nearest q := by
  cases h with
  | unsigned _ => exact ⟨_, rfl⟩
  | minus _ => exact ⟨_, rfl⟩

/-- A number that is written was rounded once. -/
theorem exact (h : WritesNumber chars n) : n.Exact := by
  obtain ⟨q, rfl⟩ := h.exists_nearest
  exact Number.exact_nearest q

theorem ne_nan (h : WritesNumber chars n) : n ≠ .nan := by
  obtain ⟨q, rfl⟩ := h.exists_nearest
  exact Number.nearest_ne_nan q

end WritesNumber

/-- The digits in front of the point and behind it are one decimal. -/
theorem ofDecimal_append (whole fraction : List Char) (exponent : Int) :
    Number.ofDecimal (decimalValue (whole ++ fraction)) (exponent - fraction.length) =
      Number.nearest
        ((decimalValue whole + decimalValue fraction / 10 ^ fraction.length) * 10 ^ exponent) := by
  rw [Number.ofDecimal_eq_nearest, decimalValue_append]
  congr 1
  have hten : (10 : Rat) ≠ 0 := by decide
  have hscale : (10 : Rat) ^ fraction.length ≠ 0 := pow_ne_zero _ hten
  rw [zpow_sub₀ hten, zpow_natCast]
  push_cast
  field_simp

/-! ### From the text to its parts -/

theorem digits_takeWhile (h : ¬ (cs.takeWhile isDigit).isEmpty = true) :
    Digits (cs.takeWhile isDigit) where
  some := by rwa [List.isEmpty_iff] at h
  all := fun _ hc => List.mem_takeWhile_imp hc

theorem exists_of_fractionPart? (h : fractionPart? cs = some (digits, rest)) :
    ∃ point, cs = point ++ rest ∧ WritesFraction point digits := by
  unfold fractionPart? at h
  split at h
  · next later =>
    split at h
    · cases h
    · next hsome =>
      cases h
      refine ⟨'.' :: later.takeWhile isDigit, ?_, .point (digits_takeWhile hsome)⟩
      rw [List.cons_append, List.takeWhile_append_dropWhile]
  · cases h
    exact ⟨[], rfl, .none⟩

theorem exists_of_signedExponent? {mark : Char} (hmark : mark = 'e' ∨ mark = 'E')
    (h : signedExponent? cs = some (exponent, rest)) :
    ∃ chars, mark :: cs = chars ++ rest ∧ WritesExponent chars exponent := by
  unfold signedExponent? at h
  split at h
  next negative later hsign =>
  split at h
  · cases h
  next hsome =>
  cases h
  -- the digits are those behind the sign, whichever sign there is
  have hdigits := digits_takeWhile hsome
  have hparts := List.takeWhile_append_dropWhile (p := isDigit) (l := later)
  split at hsign
  · cases hsign
    refine ⟨_, ?_, .plus hmark hdigits⟩
    rw [List.cons_append, List.cons_append, hparts]
  · cases hsign
    refine ⟨_, ?_, .minus hmark hdigits⟩
    rw [List.cons_append, List.cons_append, hparts]
  · cases hsign
    refine ⟨_, ?_, .unsigned hmark hdigits⟩
    rw [List.cons_append, hparts]

theorem exists_of_exponentPart? (h : exponentPart? cs = some (exponent, rest)) :
    ∃ mark, cs = mark ++ rest ∧ WritesExponent mark exponent := by
  unfold exponentPart? at h
  split at h
  · exact exists_of_signedExponent? (.inl rfl) h
  · exact exists_of_signedExponent? (.inr rfl) h
  · cases h
    exact ⟨[], rfl, .none⟩

/-- **What is read as an unsigned number** was written as one. -/
theorem exists_of_magnitude? (h : magnitude? cs = some (n, rest)) :
    ∃ chars q, cs = chars ++ rest ∧ WritesMagnitude chars q ∧ n = Number.nearest q := by
  unfold magnitude? at h
  dsimp only at h
  split at h
  · cases h
  next hshape =>
  obtain ⟨hsome, hzero⟩ := not_or.mp (Bool.or_eq_true _ _ ▸ hshape)
  obtain ⟨⟨fraction, later⟩, hfraction, h⟩ := Option.bind_eq_some_iff.mp h
  obtain ⟨⟨exponent, behind⟩, hexponent, h⟩ := Option.bind_eq_some_iff.mp h
  cases h
  -- the exponent is put back first, then the point, and the digits in front are left
  obtain ⟨mark, rfl, hmark⟩ := exists_of_exponentPart? hexponent
  obtain ⟨point, hpoint, hdigits⟩ := exists_of_fractionPart? hfraction
  refine ⟨_, _, ?_, .parts (digits_takeWhile hsome) ?_ hdigits hmark, ofDecimal_append _ _ _⟩
  · rw [List.append_assoc, List.append_assoc, ← hpoint, List.takeWhile_append_dropWhile]
  · intro hhead
    simpa [hhead] using hzero

/-- **What is read as a number** was written as one. -/
theorem exists_of_numeral? (h : numeral? cs = some (n, rest)) :
    ∃ chars, cs = chars ++ rest ∧ WritesNumber chars n := by
  unfold numeral? at h
  split at h
  · obtain ⟨⟨m, behind⟩, hm, heq⟩ := Option.map_eq_some_iff.mp h
    cases heq
    obtain ⟨chars, q, rfl, hchars, rfl⟩ := exists_of_magnitude? hm
    refine ⟨'-' :: chars, rfl, ?_⟩
    rw [← Number.nearest_neg]
    exact .minus hchars
  · obtain ⟨chars, q, rfl, hchars, rfl⟩ := exists_of_magnitude? h
    exact ⟨chars, rfl, .unsigned hchars⟩

/-! ### From the parts to the text -/

/-- An exponent starts with no digit and no point. -/
theorem WritesExponent.append_eq_cons (h : WritesExponent chars exponent) (hrest : Stops rest)
    (heq : chars ++ rest = c :: cs) : isDigit c = false ∧ c ≠ '.' := by
  have hmarks : ∀ mark : Char, mark = 'e' ∨ mark = 'E' → isDigit mark = false ∧ mark ≠ '.' := by
    rintro mark (rfl | rfl) <;> decide
  cases h with
  -- without an exponent the rest follows, which starts with neither
  | none =>
    rw [List.nil_append] at heq
    subst heq
    exact ⟨hrest.1, hrest.2.1⟩
  | unsigned hmark _ =>
    cases heq
    exact hmarks _ hmark
  | plus hmark _ =>
    cases heq
    exact hmarks _ hmark
  | minus hmark _ =>
    cases heq
    exact hmarks _ hmark

theorem exponentPart?_of_writes (h : WritesExponent chars exponent) (hrest : Stops rest) :
    exponentPart? (chars ++ rest) = some (exponent, rest) := by
  have hmarks {mark : Char} (hmark : mark = 'e' ∨ mark = 'E') (later : List Char) :
      exponentPart? (mark :: later) = signedExponent? later := by
    rcases hmark with rfl | rfl <;> rfl
  cases h with
  | none => exact hrest.exponentPart?
  | unsigned hmark hdigits =>
    exact (hmarks hmark _).trans
      (signedExponent?_digits hdigits.all hdigits.some hrest.takeWhile).1
  | plus hmark hdigits =>
    exact (hmarks hmark _).trans
      (signedExponent?_digits hdigits.all hdigits.some hrest.takeWhile).2.1
  | minus hmark hdigits =>
    exact (hmarks hmark _).trans
      (signedExponent?_digits hdigits.all hdigits.some hrest.takeWhile).2.2

/-- **What is written as an unsigned number** is read as one. -/
theorem magnitude?_of_writes (h : WritesMagnitude chars q) (hrest : Stops rest) :
    magnitude? (chars ++ rest) = some (Number.nearest q, rest) := by
  cases h with
  | @parts whole point fraction mark exponent hwhole hzero hfraction hexponent =>
    -- neither the exponent nor what is behind the numeral lengthens the digits in front
    have hmark : (mark ++ rest).takeWhile isDigit = [] := by
      cases hbehind : mark ++ rest with
      | nil => rfl
      | cons c cs =>
        exact List.takeWhile_cons_of_neg (by simp [(hexponent.append_eq_cons hrest hbehind).1])
    have hread := exponentPart?_of_writes hexponent hrest
    rw [List.append_assoc, List.append_assoc, ← ofDecimal_append]
    cases hfraction with
    | none =>
      refine magnitude?_of_parts hwhole.all hwhole.some hzero hmark ?_ hread
      rw [List.nil_append]
      unfold fractionPart?
      split
      · next hbehind => exact absurd rfl (hexponent.append_eq_cons hrest hbehind).2
      · rfl
    | point hdigits =>
      exact magnitude?_pointed hwhole.all hdigits.all hwhole.some hzero hdigits.some hmark hread

/-- **What is written as a number** is read as one. -/
theorem numeral?_of_writes (h : WritesNumber chars n) (hrest : Stops rest) :
    numeral? (chars ++ rest) = some (n, rest) := by
  cases h with
  | unsigned h => exact numeral?_of_magnitude? (magnitude?_of_writes h hrest)
  | minus h =>
    rw [Number.nearest_neg]
    exact numeral?_neg (magnitude?_of_writes h hrest)

/-! ## Tokens -/

/-- **How a name or a number is written.** -/
inductive Word : List Char → Json Text → Prop
  | null : Word "null".toList .null
  | true : Word "true".toList (.bool true)
  | false : Word "false".toList (.bool false)
  | number {chars : List Char} {n : Number} (h : WritesNumber chars n) : Word chars (.number n)

/-- **How a token is written.** Only strings hold letters that are no characters. -/
inductive Lexeme : List Letter → Token → Prop
  | openArray : Lexeme [.char '['] .openArray
  | closeArray : Lexeme [.char ']'] .closeArray
  | openObject : Lexeme [.char '\x7b'] .openObject
  | closeObject : Lexeme [.char '\x7d'] .closeObject
  | comma : Lexeme [.char ','] .comma
  | colon : Lexeme [.char ':'] .colon
  | string {letters : List Letter} {s : Text} (h : WritesString letters s) :
      Lexeme letters (.string s)
  | word {chars : List Char} {value : Json Text} (h : Word chars value) :
      Lexeme (chars.map .char) (.scalar value)

/-- **The word at the front of characters** was written there. -/
theorem exists_of_word? (h : word? cs = some (value, rest)) :
    ∃ chars, cs = chars ++ rest ∧ Word chars value := by
  unfold word? at h
  split at h
  case h_4 =>
    -- whatever is no name must be a number
    obtain ⟨⟨n, behind⟩, hn, heq⟩ := Option.map_eq_some_iff.mp h
    cases heq
    obtain ⟨chars, rfl, hchars⟩ := exists_of_numeral? hn
    exact ⟨chars, rfl, .number hchars⟩
  all_goals cases h
  · exact ⟨_, rfl, .null⟩
  · exact ⟨_, rfl, .true⟩
  · exact ⟨_, rfl, .false⟩

/-- **The token at the front of a text** was written there. -/
theorem lexeme_of_front? {rest : List Letter} (h : Token.front? letters = some (token, rest)) :
    ∃ front, letters = front ++ rest ∧ Lexeme front token := by
  unfold Token.front? at h
  split at h
  case h_7 =>
    -- a string, from its first quote on
    obtain ⟨⟨codes, behind⟩, hcodes, heq⟩ := Option.map_eq_some_iff.mp h
    cases heq
    obtain ⟨inside, rfl, hinside⟩ := stringBody?_eq_some_iff.mp hcodes
    refine ⟨.char '"' :: (inside ++ [.char '"']), ?_, .string ⟨inside, codes, rfl, hinside, rfl⟩⟩
    rw [List.cons_append, List.append_assoc]
    rfl
  case h_8 =>
    -- whatever is neither a string nor a mark is a word
    obtain ⟨⟨found, behind⟩, hword, heq⟩ := Option.map_eq_some_iff.mp h
    cases heq
    obtain ⟨chars, hrun, hchars⟩ := exists_of_word? hword
    refine ⟨chars.map .char, ?_, .word hchars⟩
    rw [← List.append_assoc, ← List.map_append, ← hrun, map_run_append]
  all_goals cases h
  · exact ⟨_, rfl, .openArray⟩
  · exact ⟨_, rfl, .closeArray⟩
  · exact ⟨_, rfl, .openObject⟩
  · exact ⟨_, rfl, .closeObject⟩
  · exact ⟨_, rfl, .comma⟩
  · exact ⟨_, rfl, .colon⟩

/-- **The text that is read as a number** writes the number. -/
theorem NumberReadsAs.writes {m : Number} (h : NumberReadsAs n m) :
    WritesNumber (numberText n).toList m := by
  obtain ⟨chars, hchars, hword⟩ := exists_of_word? (h [] trivial)
  rw [List.append_cancel_right hchars]
  cases hword with
  | number hm => exact hm

/-- **A word that is written at the front of characters** is read, if nothing behind it lengthens a
numeral. -/
theorem word?_of_word (h : Word chars value) (hrest : Stops rest) :
    word? (chars ++ rest) = some (value, rest) := by
  cases h with
  | number h => exact word?_of_numeral? (numeral?_of_writes h hrest)
  | _ => rfl

/-- **A token that is written at the front of a text** is read, if nothing behind it lengthens a
numeral. -/
theorem front?_of_lexeme {rest : List Letter} (h : Lexeme letters token)
    (hrest : Stops (Letter.run rest)) : Token.front? (letters ++ rest) = some (token, rest) := by
  cases h with
  | string h =>
    obtain ⟨inside, codes, rfl, hinside, rfl⟩ := h
    have hcodes : stringBody? (inside ++ .char '"' :: rest) = some (codes, rest) :=
      stringBody?_eq_some_iff.mpr ⟨inside, rfl, hinside⟩
    rw [List.cons_append, List.append_assoc]
    change (stringBody? (inside ++ .char '"' :: rest)).map _ = _
    rw [hcodes]
    rfl
  | word h => exact front?_of_word? (word?_of_word h hrest)
  | _ => rfl

end Json

end BoundedJobs
