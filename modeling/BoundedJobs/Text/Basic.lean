/-!
# Texts

A text is stored as a sequence of units of sixteen bits. A character outside the basic plane takes
two of them, its halves. Nothing keeps a text from holding one half without the other, so not every
text is a sequence of characters.

* `Letter` — what a text is made of: a character, or a half that stands alone;
* `Text` — a text. The halves of one character are never beside each other, so that no text can be
  told in two ways;
* `Text.ofCodes` — the text of some codes, `Text.ofString` — the text of characters;
* `Text.string` — a text where only characters may stand;
* `Wording` — what may stand for a text.
-/

namespace BoundedJobs

/-- What a text is made of. -/
inductive Letter where
  | char (c : Char)
  /-- The first or the second half of a character, without the other one: ten bits of its code. -/
  | half (isFirst : Bool) (bits : Fin 1024)
  deriving DecidableEq, Inhabited

namespace Letter

/-- The code of a letter: that of a character, or the unit of a half. -/
def code : Letter → Nat
  | char c => c.toNat
  | half isFirst bits => (if isFirst then 0xD800 else 0xDC00) + bits

/-- A letter where only characters may stand. -/
def shown : Letter → Char
  | char c => c
  | half .. => '\ufffd'

/-- The characters in front of the first half. -/
def run : List Letter → List Char
  | char c :: letters => c :: run letters
  | _ => []

/-- Whether the halves of one character are nowhere beside each other. -/
def areApart : List Letter → Bool
  | half true _ :: half false _ :: _ => false
  | _ :: letters => areApart letters
  | [] => true

def isHighSurrogate (unit : Nat) : Bool := 0xD800 ≤ unit && unit < 0xDC00

def isLowSurrogate (unit : Nat) : Bool := 0xDC00 ≤ unit && unit < 0xE000

/-- The letter of a code on its own. -/
def ofCode (code : Nat) : Letter :=
  if isHighSurrogate code then half true (Fin.ofNat 1024 (code - 0xD800))
  else if isLowSurrogate code then half false (Fin.ofNat 1024 (code - 0xDC00))
  else char (Char.ofNat code)

/-- The letters of codes, two halves being one character. -/
def joined : List Nat → List Letter
  | [] => []
  | [code] => [ofCode code]
  | high :: low :: rest =>
    if isHighSurrogate high && isLowSurrogate low then
      char (Char.ofNat (0x10000 + (high - 0xD800) * 0x400 + (low - 0xDC00))) :: joined rest
    else ofCode high :: joined (low :: rest)

theorem areApart_chars (cs : List Char) : areApart (cs.map char) = true := by
  induction cs with
  | nil => rfl
  | cons c cs ih => exact ih

/-- The first of the letters is that of the first code, or a character. -/
theorem head?_joined (code : Nat) (rest : List Nat) :
    (joined (code :: rest)).head? = some (ofCode code) ∨
      ∃ c, (joined (code :: rest)).head? = some (char c) := by
  cases rest with
  | nil => exact .inl rfl
  | cons next rest =>
    unfold joined
    split
    · exact .inr ⟨_, rfl⟩
    · exact .inl rfl

/-- A letter in front of others is apart from them if it is no first half or they start with no
second one. -/
theorem areApart_cons {letter : Letter} {letters : List Letter}
    (h : ∀ first second, letter = half true first → letters.head? ≠ some (half false second))
    (apart : areApart letters = true) : areApart (letter :: letters) = true := by
  unfold areApart
  split
  · next first second _ heq =>
    obtain ⟨hletter, hletters⟩ := List.cons.inj heq
    exact absurd (congrArg List.head? hletters) (h first second hletter)
  · next heq => exact (List.cons.inj heq).2 ▸ apart
  · next heq => cases heq

theorem areApart_joined (codes : List Nat) : areApart (joined codes) = true := by
  induction codes using joined.induct with
  | case1 => rfl
  | case2 code => exact areApart_cons (fun _ _ _ => nofun) rfl
  | case3 high low rest hpair ih =>
    rw [joined, if_pos hpair]
    exact areApart_cons (fun _ _ => nofun) ih
  | case4 high low rest hpair ih =>
    rw [joined, if_neg hpair]
    refine areApart_cons (fun first second hhigh hhead => hpair ?_) ih
    -- two halves beside each other would have been joined
    have hlow : ofCode low = half false second := by
      rcases head?_joined low rest with hlow | ⟨c, hchar⟩
      · exact Option.some.inj (hlow.symm.trans hhead)
      · cases hchar.symm.trans hhead
    unfold ofCode at hhigh hlow
    split at hhigh
    · next hfirst =>
      split at hlow
      · cases hlow
      · split at hlow
        · next hsecond => rw [hfirst, hsecond]; rfl
        · cases hlow
    · split at hhigh <;> cases hhigh

end Letter

/-- A text. -/
structure Text where
  letters : List Letter
  /-- Halves that belong together are one character. -/
  apart : Letter.areApart letters = true
  deriving DecidableEq

namespace Text

/-- The text of the given codes. -/
def ofCodes (codes : List Nat) : Text := ⟨Letter.joined codes, Letter.areApart_joined codes⟩

/-- The text of characters. -/
def ofString (s : String) : Text := ⟨s.toList.map .char, Letter.areApart_chars _⟩

instance : Inhabited Text := ⟨ofString ""⟩

/-- A text where only characters may stand: a half becomes the replacement character. -/
def string (t : Text) : String := String.ofList (t.letters.map Letter.shown)

end Text

/-- Whatever may stand for a text. -/
class Wording (τ : Type) where
  ofString : String → τ
  letters : τ → List Letter

instance : Wording String := ⟨id, fun s => s.toList.map .char⟩

instance : Wording Text := ⟨Text.ofString, Text.letters⟩

@[simp] theorem Wording.ofString_string (s : String) : (ofString s : String) = s := rfl

@[simp] theorem Wording.ofString_text (s : String) : (ofString s : Text) = .ofString s := rfl

end BoundedJobs
