import BoundedJobs.Json.Parser
import BoundedJobs.Proofs.Json.Lexemes

/-!
# The grammar of JSON

How a tree may be written: an array is a list of values with commas between them, an object is a
list of named values, and blanks may stand around every word. A text writes a tree if it is one
value with nothing but blanks around it. Every text that writes a tree is read as this tree.

* `Json.Element`, `Json.Member` — a value and a named value with the blanks around them;
* `Json.Writes`, `Json.WritesText` — how a tree may be written, and a whole text;
* `Json.Numbers`, `Json.Writes.numbers` — all numbers of a tree have a property;
* `Json.Leads` — letters that lead a reading from one state to another, `Json.Leads.append`,
  `Json.Leads.cons`, `Json.leads_lexeme` — put together from tokens;
* `Json.leads_elements`, `Json.leads_members` — the entries of a container behind its first one;
* `Json.Writes.reads`, `Json.WritesText.read?_eq` — what is written is read.
-/

namespace BoundedJobs

namespace Json

variable {letter : Letter} {letters more rest blanks : List Letter} {token : Token}
  {before between after : Reading} {frames : List Frame} {tree value : Json Text}

/-! ## Blanks -/

/-- Letters that may stand between words. -/
def Blanks (letters : List Letter) : Prop := ∀ letter ∈ letters, isBlank letter = true

theorem Blanks.nil : Blanks [] := List.forall_mem_nil _

theorem Blanks.cons (hletter : isBlank letter = true) (h : Blanks letters) :
    Blanks (letter :: letters) :=
  List.forall_mem_cons.mpr ⟨hletter, h⟩

/-- No blank lengthens a numeral. -/
theorem Blanks.stops (h : Blanks blanks) (hrest : Stops (Letter.run rest)) :
    Stops (Letter.run (blanks ++ rest)) := by
  cases blanks with
  | nil => exact hrest
  | cons letter blanks =>
    have hblank := h letter List.mem_cons_self
    cases letter with
    | char c =>
      unfold isBlank at hblank
      simp only [Bool.or_eq_true, decide_eq_true_eq] at hblank
      change isDigit c = false ∧ c ≠ '.' ∧ c ≠ 'e' ∧ c ≠ 'E'
      rcases hblank with ((rfl | rfl) | rfl) | rfl <;> decide
    | half => cases hblank

/-- Blanks are passed over. -/
theorem Blanks.scan_append (h : Blanks blanks) (letters : List Letter) :
    Token.scan (blanks ++ letters) = Token.scan letters := by
  induction blanks with
  | nil => rfl
  | cons letter blanks ih =>
    obtain ⟨hletter, hothers⟩ := List.forall_mem_cons.mp h
    rw [← ih hothers]
    exact if_pos hletter

/-! ## Trees -/

/-- **A value with blanks around it.** -/
structure Element where
  before : List Letter
  body : List Letter
  after : List Letter
  value : Json Text
  blanks_before : Blanks before
  blanks_after : Blanks after

/-- The letters of a value and of the blanks around it. -/
def Element.text (e : Element) : List Letter := e.before ++ (e.body ++ e.after)

/-- **A named value**: the name between blanks, a colon and the value. -/
structure Member where
  before : List Letter
  spelling : List Letter
  between : List Letter
  name : Text
  element : Element
  blanks_before : Blanks before
  blanks_between : Blanks between
  spells : WritesString spelling name

namespace Member

/-- The letters of a named value. -/
def text (m : Member) : List Letter :=
  m.before ++ ((m.spelling ++ m.between) ++ .char ':' :: m.element.text)

/-- The name and the value. -/
def entry (m : Member) : Text × Json Text := (m.name, m.element.value)

end Member

/-- Entries one after the other with commas between them. -/
def joinedByCommas (entries : List (List Letter)) : List Letter := [.char ','].intercalate entries

/-- **How a tree is written.** A container without entries may hold blanks. -/
inductive Writes : List Letter → Json Text → Prop
  | null : Writes ("null".toList.map .char) .null
  | true : Writes ("true".toList.map .char) (.bool true)
  | false : Writes ("false".toList.map .char) (.bool false)
  | number {chars : List Char} {n : Number} (h : WritesNumber chars n) :
      Writes (chars.map .char) (.number n)
  | string {letters : List Letter} {s : Text} (h : WritesString letters s) :
      Writes letters (.string s)
  | emptyArray {blanks : List Letter} (h : Blanks blanks) :
      Writes (.char '[' :: (blanks ++ [.char ']'])) (.array [])
  | array {elements : List Element} (some : elements ≠ [])
      (each : ∀ e ∈ elements, Writes e.body e.value) :
      Writes (.char '[' :: (joinedByCommas (elements.map (·.text)) ++ [.char ']']))
        (.array (elements.map (·.value)))
  | emptyObject {blanks : List Letter} (h : Blanks blanks) :
      Writes (.char '\x7b' :: (blanks ++ [.char '\x7d'])) (.object [])
  | object {members : List Member} (some : members ≠ [])
      (each : ∀ m ∈ members, Writes m.element.body m.element.value) :
      Writes (.char '\x7b' :: (joinedByCommas (members.map (·.text)) ++ [.char '\x7d']))
        (.object (members.map (·.entry)))

/-- **A text writes a tree** if it is one value with nothing but blanks around it. -/
def WritesText (text : Text) (tree : Json Text) : Prop :=
  ∃ e : Element, text.letters = e.text ∧ e.value = tree ∧ Writes e.body tree

/-- **All numbers of a tree have a property.** -/
inductive Numbers {τ : Type} (P : Number → Prop) : Json τ → Prop
  | null : Numbers P .null
  | bool (value : Bool) : Numbers P (.bool value)
  | number {n : Number} : P n → Numbers P (.number n)
  | string (value : τ) : Numbers P (.string value)
  | array {items : List (Json τ)} : (∀ item ∈ items, Numbers P item) → Numbers P (.array items)
  | object {members : List (τ × Json τ)} :
      (∀ member ∈ members, Numbers P member.2) → Numbers P (.object members)

/-- **The numbers of a tree** that is written are written, too. By induction on how the tree is
written. -/
theorem Writes.numbers {P : Number → Prop} (hnumber : ∀ chars n, WritesNumber chars n → P n)
    (h : Writes letters tree) : tree.Numbers P := by
  induction h with
  | null => exact .null
  | true => exact .bool _
  | false => exact .bool _
  | number h => exact .number (hnumber _ _ h)
  | string h => exact .string _
  -- an empty container holds no number
  | emptyArray _ => exact .array (List.forall_mem_nil _)
  | array _ _ ih =>
    refine .array fun item hitem => ?_
    obtain ⟨e, he, rfl⟩ := List.mem_map.mp hitem
    exact ih e he
  | emptyObject _ => exact .object (List.forall_mem_nil _)
  | object _ _ ih =>
    refine .object fun member hmember => ?_
    obtain ⟨m, hm, rfl⟩ := List.mem_map.mp hmember
    exact ih m hm

/-! ## Entries -/

/-- Entries behind the first one, each with a comma in front, and the closing bracket. -/
def behindFirst (entries : List (List Letter)) (bracket : Char) : List Letter :=
  entries.flatMap (.char ',' :: ·) ++ [.char bracket]

theorem behindFirst_cons (entry : List Letter) (entries : List (List Letter)) (bracket : Char) :
    behindFirst (entry :: entries) bracket
      = .char ',' :: (entry ++ behindFirst entries bracket) := by
  unfold behindFirst
  rw [List.flatMap_cons, List.cons_append, List.cons_append, List.append_assoc]

theorem joinedByCommas_cons (entry : List Letter) (entries : List (List Letter))
    (bracket : Char) :
    joinedByCommas (entry :: entries) ++ [.char bracket]
      = entry ++ behindFirst entries bracket := by
  unfold joinedByCommas
  induction entries generalizing entry with
  | nil => rw [List.intercalate_singleton]; rfl
  | cons next entries ih =>
    rw [List.intercalate_cons_cons, List.append_assoc, ih, behindFirst_cons, List.append_assoc]
    rfl

theorem stops_behindFirst {bracket : Char} (h : bracket = ']' ∨ bracket = '\x7d')
    (entries : List (List Letter)) (rest : List Letter) :
    Stops (Letter.run (behindFirst entries bracket ++ rest)) := by
  cases entries with
  | nil =>
    rcases h with rfl | rfl
    all_goals exact ⟨rfl, by decide, by decide, by decide⟩
  | cons entry entries => exact ⟨rfl, by decide, by decide, by decide⟩

/-! ## Readings -/

/-- **Letters that lead a reading** from one state to another, if what follows them lengthens no
numeral. -/
def Leads (letters : List Letter) (before after : Reading) : Prop :=
  ∀ rest others, Stops (Letter.run rest) → Token.scan rest = some others →
    ∃ tokens, Token.scan (letters ++ rest) = some (tokens ++ others) ∧
      tokens.foldlM Reading.next? before = some after

theorem leads_lexeme (h : Lexeme letters token) (hnext : before.next? token = some after) :
    Leads letters before after := by
  intro rest others hstops hscan
  have hfront := front?_of_lexeme h hstops
  refine ⟨[token], ?_, ?_⟩
  · cases letters with
    | nil =>
      -- there is no token in an empty text
      have hempty : Token.front? [] = some (token, []) := front?_of_lexeme h trivial
      cases hempty
    | cons letter letters => exact scan_append letters hfront hscan
  · rw [List.foldlM_cons, hnext]
    rfl

theorem Leads.append (h : Leads letters before between) (hmore : Leads more between after)
    (hstops : ∀ rest, Stops (Letter.run rest) → Stops (Letter.run (more ++ rest))) :
    Leads (letters ++ more) before after := by
  intro rest others hrest hscan
  -- the tokens are put together from behind: the first part is followed by the second one
  obtain ⟨later, hlater, hafter⟩ := hmore rest others hrest hscan
  obtain ⟨tokens, htokens, hbetween⟩ :=
    h (more ++ rest) (later ++ others) (hstops rest hrest) hlater
  refine ⟨tokens ++ later, ?_, ?_⟩
  · rw [List.append_assoc, htokens, List.append_assoc]
  · rw [List.foldlM_append, hbetween]
    exact hafter

/-- A mark is one token, whatever stands behind it. -/
theorem Leads.cons (hfront : ∀ rest, Token.front? (letter :: rest) = some (token, rest))
    (hnext : before.next? token = some between) (h : Leads letters between after) :
    Leads (letter :: letters) before after := by
  intro rest others hrest hscan
  obtain ⟨tokens, htokens, hafter⟩ := h rest others hrest hscan
  refine ⟨token :: tokens, scan_append [] (hfront _) htokens, ?_⟩
  rw [List.foldlM_cons, hnext]
  exact hafter

/-- Blanks in front lead nowhere. -/
theorem Leads.blanks_append (h : Leads letters before after) (hblanks : Blanks blanks) :
    Leads (blanks ++ letters) before after := by
  intro rest others hrest hscan
  rw [List.append_assoc, hblanks.scan_append]
  exact h rest others hrest hscan

/-- Neither do blanks behind. -/
theorem Leads.append_blanks (h : Leads letters before after) (hblanks : Blanks blanks) :
    Leads (letters ++ blanks) before after := by
  intro rest others hrest hscan
  rw [List.append_assoc]
  exact h (blanks ++ rest) others (hblanks.stops hrest) (by rwa [hblanks.scan_append])

/-- Where the first item may stand, any value may. -/
theorem Leads.atFirstItem {others : List Frame}
    (h : Leads letters (.atValue (.items [] :: frames)) (.complete value others)) :
    Leads letters (.atFirstItem frames) (.complete value others) := by
  intro rest following hrest hscan
  obtain ⟨tokens, htokens, hfold⟩ := h rest following hrest hscan
  refine ⟨tokens, htokens, ?_⟩
  cases tokens with
  | nil => cases hfold
  | cons token tokens =>
    -- only a closing bracket makes a difference, and no value starts with one
    rw [List.foldlM_cons] at hfold ⊢
    cases token <;> first | exact hfold | cases hfold

/-- **Letters that are read as a tree**, wherever a value may stand. -/
def Reads (letters : List Letter) (tree : Json Text) : Prop :=
  ∀ frames, Leads letters (.atValue frames) (.complete tree frames)

theorem Element.reads {e : Element} (h : Reads e.body e.value) : Reads e.text e.value :=
  fun frames => ((h frames).append_blanks e.blanks_after).blanks_append e.blanks_before

/-- A named value, where its name may stand. -/
theorem Member.leads {m : Member} (h : Reads m.element.body m.element.value)
    {members : List (Text × Json Text)}
    (hname : ∀ text, before.next? (.string text) = some (.atColon members text frames)) :
    Leads m.text before (.complete m.element.value (.member members m.name :: frames)) := by
  -- the colon stands between two readings: that of the name and that of the value
  have hspelled := (leads_lexeme (.string m.spells) (hname m.name)).append_blanks m.blanks_between
  have hvalue : Leads (Letter.char ':' :: m.element.text) (.atColon members m.name frames)
      (.complete m.element.value (.member members m.name :: frames)) :=
    Leads.cons (fun _ => rfl) rfl (Element.reads h _)
  exact (hspelled.append hvalue fun _ _ => ⟨rfl, by decide, by decide, by decide⟩).blanks_append
    m.blanks_before

/-- The items behind one that was completed. -/
theorem leads_elements {elements : List Element} (h : ∀ e ∈ elements, Reads e.body e.value)
    (value : Json Text) (before : List (Json Text)) :
    Leads (behindFirst (elements.map (·.text)) ']') (.complete value (.items before :: frames))
      (.complete (.array ((value :: before).reverse ++ elements.map (·.value))) frames) := by
  induction elements generalizing value before with
  | nil =>
    rw [List.map_nil, List.map_nil, List.append_nil]
    exact leads_lexeme .closeArray rfl
  | cons e elements ih =>
    obtain ⟨hfirst, hothers⟩ := List.forall_mem_cons.mp h
    -- the comma makes the completed value an entry of the container
    have hbehind := ih hothers e.value (value :: before)
    rw [List.reverse_cons, List.append_assoc] at hbehind
    rw [List.map_cons, behindFirst_cons]
    refine Leads.cons (fun _ => rfl) rfl ?_
    exact (Element.reads hfirst _).append hbehind fun rest _ => stops_behindFirst (.inl rfl) _ rest

/-- The members behind one that was completed. -/
theorem leads_members {members : List Member}
    (h : ∀ m ∈ members, Reads m.element.body m.element.value) (name : Text) (value : Json Text)
    (before : List (Text × Json Text)) :
    Leads (behindFirst (members.map (·.text)) '\x7d')
      (.complete value (.member before name :: frames))
      (.complete (.object (((name, value) :: before).reverse ++ members.map (·.entry)))
        frames) := by
  -- on the members that are left, with those before them in the frame
  induction members generalizing name value before with
  | nil =>
    rw [List.map_nil, List.map_nil, List.append_nil]
    exact leads_lexeme .closeObject rfl
  | cons m members ih =>
    obtain ⟨hfirst, hothers⟩ := List.forall_mem_cons.mp h
    have hbehind := ih hothers m.name m.element.value ((name, value) :: before)
    rw [List.reverse_cons, List.append_assoc] at hbehind
    rw [List.map_cons, behindFirst_cons]
    refine Leads.cons (fun _ => rfl) rfl ?_
    exact (Member.leads hfirst fun _ => rfl).append hbehind
      fun rest _ => stops_behindFirst (.inr rfl) _ rest

/-- **What is written is read**, wherever a value may stand. By induction on how it is written: a
container is read as itself if its entries are. -/
theorem Writes.reads (h : Writes letters tree) : Reads letters tree := by
  induction h with
  | null => exact fun _ => leads_lexeme (.word .null) rfl
  | true => exact fun _ => leads_lexeme (.word .true) rfl
  | false => exact fun _ => leads_lexeme (.word .false) rfl
  | number h => exact fun _ => leads_lexeme (.word (.number h)) rfl
  | string h => exact fun _ => leads_lexeme (.string h) rfl
  -- an empty container closes behind its blanks
  | emptyArray hblanks =>
    intro frames
    refine Leads.cons (fun _ => rfl) rfl (Leads.blanks_append ?_ hblanks)
    exact leads_lexeme .closeArray rfl
  -- the bracket opens a frame, into which the entries are read one by one
  | @array elements some _ ih =>
    intro frames
    refine Leads.cons (fun _ => rfl) rfl ?_
    obtain ⟨e, elements, rfl⟩ := List.exists_cons_of_ne_nil some
    obtain ⟨hfirst, hothers⟩ := List.forall_mem_cons.mp ih
    rw [List.map_cons, joinedByCommas_cons]
    exact (Element.reads hfirst _).atFirstItem.append (leads_elements hothers _ [])
      fun rest _ => stops_behindFirst (.inl rfl) _ rest
  | emptyObject hblanks =>
    intro frames
    refine Leads.cons (fun _ => rfl) rfl (Leads.blanks_append ?_ hblanks)
    exact leads_lexeme .closeObject rfl
  | @object members some _ ih =>
    intro frames
    refine Leads.cons (fun _ => rfl) rfl ?_
    obtain ⟨m, members, rfl⟩ := List.exists_cons_of_ne_nil some
    obtain ⟨hfirst, hothers⟩ := List.forall_mem_cons.mp ih
    rw [List.map_cons, joinedByCommas_cons]
    -- a member starts with its name, so no value is expected first
    exact (Member.leads hfirst fun _ => rfl).append (leads_members hothers _ _ [])
      fun rest _ => stops_behindFirst (.inr rfl) _ rest

/-- **A text that writes a tree** is read as this tree. -/
theorem WritesText.read?_eq {text : Text} (h : WritesText text tree) :
    read? text = some tree := by
  obtain ⟨e, htext, rfl, hbody⟩ := h
  -- the whole text is an element with nothing behind it
  obtain ⟨tokens, hscan, hfold⟩ := Element.reads hbody.reads [] [] [] trivial rfl
  rw [List.append_nil, List.append_nil] at hscan
  unfold read?
  rw [htext, hscan]
  change (tokens.foldlM Reading.next? (.atValue [])).bind Reading.result? = _
  rw [hfold]
  rfl

end Json

end BoundedJobs
