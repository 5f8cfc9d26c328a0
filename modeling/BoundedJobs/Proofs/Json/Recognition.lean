import BoundedJobs.Proofs.Json.Grammar

/-!
# Reading is recognition

A text is read as a tree exactly if it writes the tree. One direction is that what is written is
read. For the other one the reading is followed backwards from its end: at every point the rest of
the text is what the grammar asks for at this point. Nothing has to follow behind a complete tree,
and if the grammar is satisfied behind a token, then it is satisfied in front of it.

* `Json.Behind` — what stands behind a completed value;
* `Json.Follows` — what stands behind a reading, `Json.Follows.blank` and `Json.follows_token` — one
  step backwards over a blank and over a token;
* `Json.follows_of_scan` — so over all of a text;
* `Json.read?_eq_some_iff` — the texts that are read as a tree are those that write it.
-/

namespace BoundedJobs

namespace Json

variable {letter : Letter} {letters rest : List Letter} {token : Token}
  {reading next : Reading} {frames : List Frame} {tree value : Json Text}

/-- **What stands behind a completed value**, so that the whole text writes the tree: the entries
that are still missing in each open container, from the innermost outwards. -/
inductive Behind (tree : Json Text) : List Frame → Json Text → List Letter → Prop
  | nothing {blanks : List Letter} (h : Blanks blanks) : Behind tree [] tree blanks
  | items {before : List (Json Text)} {frames : List Frame} {value : Json Text}
      {blanks rest : List Letter} {elements : List Element} (hblanks : Blanks blanks)
      (each : ∀ e ∈ elements, Writes e.body e.value)
      (outer : Behind tree frames
        (.array ((value :: before).reverse ++ elements.map (·.value))) rest) :
      Behind tree (.items before :: frames) value
        (blanks ++ (behindFirst (elements.map (·.text)) ']' ++ rest))
  | members {before : List (Text × Json Text)} {name : Text} {frames : List Frame}
      {value : Json Text} {blanks rest : List Letter} {members : List Member}
      (hblanks : Blanks blanks)
      (each : ∀ m ∈ members, Writes m.element.body m.element.value)
      (outer : Behind tree frames
        (.object (((name, value) :: before).reverse ++ members.map (·.entry))) rest) :
      Behind tree (.member before name :: frames) value
        (blanks ++ (behindFirst (members.map (·.text)) '\x7d' ++ rest))

/-- **What stands behind a reading**, so that the whole text writes the tree. -/
inductive Follows (tree : Json Text) : Reading → List Letter → Prop
  | value {frames : List Frame} {value : Json Text} {blanks body rest : List Letter}
      (hblanks : Blanks blanks) (hbody : Writes body value) (h : Behind tree frames value rest) :
      Follows tree (.atValue frames) (blanks ++ (body ++ rest))
  | emptyArray {frames : List Frame} {blanks rest : List Letter} (hblanks : Blanks blanks)
      (h : Behind tree frames (.array []) rest) :
      Follows tree (.atFirstItem frames) (blanks ++ .char ']' :: rest)
  | firstItem {frames : List Frame} {rest : List Letter}
      (h : Follows tree (.atValue (.items [] :: frames)) rest) :
      Follows tree (.atFirstItem frames) rest
  | emptyObject {frames : List Frame} {blanks rest : List Letter} (hblanks : Blanks blanks)
      (h : Behind tree frames (.object []) rest) :
      Follows tree (.atFirstName frames) (blanks ++ .char '\x7d' :: rest)
  | firstName {frames : List Frame} {rest : List Letter}
      (h : Follows tree (.atName [] frames) rest) :
      Follows tree (.atFirstName frames) rest
  | name {before : List (Text × Json Text)} {name : Text} {frames : List Frame}
      {blanks spelling rest : List Letter} (hblanks : Blanks blanks)
      (hname : WritesString spelling name) (h : Follows tree (.atColon before name frames) rest) :
      Follows tree (.atName before frames) (blanks ++ (spelling ++ rest))
  | colon {before : List (Text × Json Text)} {name : Text} {frames : List Frame}
      {blanks rest : List Letter} (hblanks : Blanks blanks)
      (h : Follows tree (.atValue (.member before name :: frames)) rest) :
      Follows tree (.atColon before name frames) (blanks ++ .char ':' :: rest)
  | complete {frames : List Frame} {value : Json Text} {rest : List Letter}
      (h : Behind tree frames value rest) : Follows tree (.complete value frames) rest

/-! ## Blanks -/

theorem Behind.blank (hc : isBlank letter = true) (h : Behind tree frames value rest) :
    Behind tree frames value (letter :: rest) := by
  cases h with
  | nothing hblanks => exact .nothing (hblanks.cons hc)
  | items hblanks each outer => exact .items (hblanks.cons hc) each outer
  | members hblanks each outer => exact .members (hblanks.cons hc) each outer

/-- **One step backwards over a blank.** -/
theorem Follows.blank (hc : isBlank letter = true) (h : Follows tree reading rest) :
    Follows tree reading (letter :: rest) := by
  induction h with
  | value hblanks hbody h => exact .value (hblanks.cons hc) hbody h
  | emptyArray hblanks h => exact .emptyArray (hblanks.cons hc) h
  | firstItem _ ih => exact .firstItem ih
  | emptyObject hblanks h => exact .emptyObject (hblanks.cons hc) h
  | firstName _ ih => exact .firstName ih
  | name hblanks hname h _ => exact .name (hblanks.cons hc) hname h
  | colon hblanks h _ => exact .colon (hblanks.cons hc) h
  | complete h => exact .complete (h.blank hc)

/-! ## Tokens -/

/-- A value in front of what stands behind it. -/
theorem follows_body (hbody : Writes letters value)
    (h : Follows tree (.complete value frames) rest) :
    Follows tree (.atValue frames) (letters ++ rest) := by
  cases h with
  | complete h => exact .value Blanks.nil hbody h

/-- Where the next item of an array must stand, there is one, and the others and the closing bracket
are behind it. -/
theorem Follows.exists_elements {before : List (Json Text)}
    (h : Follows tree (.atValue (.items before :: frames)) rest) :
    ∃ (e : Element) (elements : List Element) (later : List Letter),
      rest = e.text ++ (behindFirst (elements.map (·.text)) ']' ++ later) ∧
      (∀ item ∈ e :: elements, Writes item.body item.value) ∧
      Behind tree frames (.array (before.reverse ++ (e :: elements).map (·.value))) later := by
  cases h with
  | @value _ value blanks body _ hblanks hbody h =>
    cases h with
    | @items _ _ _ after later elements hafter each outer =>
      refine ⟨⟨blanks, body, after, value, hblanks, hafter⟩, elements, later, ?_, ?_, ?_⟩
      · unfold Element.text
        simp only [List.append_assoc]
      · exact List.forall_mem_cons.mpr ⟨hbody, each⟩
      · rwa [List.reverse_cons, List.append_assoc] at outer

/-- Where the next name of an object must stand, there is a member, and the others and the closing
bracket are behind it. -/
theorem Follows.exists_members {before : List (Text × Json Text)}
    (h : Follows tree (.atName before frames) rest) :
    ∃ (m : Member) (members : List Member) (later : List Letter),
      rest = m.text ++ (behindFirst (members.map (·.text)) '\x7d' ++ later) ∧
      (∀ member ∈ m :: members, Writes member.element.body member.element.value) ∧
      Behind tree frames (.object (before.reverse ++ (m :: members).map (·.entry))) later := by
  -- four steps lead from the name to the members behind: name, colon, value, and the others
  cases h with
  | @name _ name _ front spelling _ hfront hname h =>
  cases h with
  | @colon _ _ _ between _ hbetween h =>
  cases h with
  | @value _ value blanks body _ hblanks hbody h =>
  cases h with
  | @members _ _ _ _ after later members hafter each outer =>
    let element : Element := ⟨blanks, body, after, value, hblanks, hafter⟩
    refine ⟨⟨front, spelling, between, name, element, hfront, hbetween, hname⟩, members, later,
      ?_, ?_, ?_⟩
    · unfold Member.text Element.text
      simp only [List.append_assoc, List.cons_append, element]
    · exact List.forall_mem_cons.mpr ⟨hbody, each⟩
    · rwa [List.reverse_cons, List.append_assoc] at outer

/-- An array, from its opening bracket on. -/
theorem follows_openArray (h : Follows tree (.atFirstItem frames) rest) :
    Follows tree (.atValue frames) (.char '[' :: rest) := by
  cases h with
  | @emptyArray _ blanks rest hblanks h =>
    have hbody : .char '[' :: (blanks ++ .char ']' :: rest)
        = (.char '[' :: (blanks ++ [.char ']'])) ++ rest := by
      rw [List.cons_append, List.append_assoc]
      rfl
    rw [hbody]
    exact follows_body (.emptyArray hblanks) (.complete h)
  | firstItem h =>
    obtain ⟨e, elements, later, rfl, each, outer⟩ := h.exists_elements
    have harray := Writes.array (List.cons_ne_nil e elements) each
    rw [List.map_cons, joinedByCommas_cons] at harray
    rw [← List.append_assoc]
    exact follows_body harray (.complete outer)

/-- An object, from its opening bracket on. -/
theorem follows_openObject (h : Follows tree (.atFirstName frames) rest) :
    Follows tree (.atValue frames) (.char '\x7b' :: rest) := by
  cases h with
  | @emptyObject _ blanks rest hblanks h =>
    have hbody : .char '\x7b' :: (blanks ++ .char '\x7d' :: rest)
        = (.char '\x7b' :: (blanks ++ [.char '\x7d'])) ++ rest := by
      rw [List.cons_append, List.append_assoc]
      rfl
    rw [hbody]
    exact follows_body (.emptyObject hblanks) (.complete h)
  | firstName h =>
    obtain ⟨m, members, later, rfl, each, outer⟩ := h.exists_members
    have hobject := Writes.object (List.cons_ne_nil m members) each
    rw [List.map_cons, joinedByCommas_cons] at hobject
    rw [← List.append_assoc]
    exact follows_body hobject (.complete outer)

/-- A token that starts a value or is one. -/
theorem follows_enter (hlexeme : Lexeme letters token)
    (hnext : Reading.enter? frames token = some next) (h : Follows tree next rest) :
    Follows tree (.atValue frames) (letters ++ rest) := by
  cases hlexeme with
  | openArray =>
    cases hnext
    exact follows_openArray h
  | openObject =>
    cases hnext
    exact follows_openObject h
  | string hs =>
    cases hnext
    exact follows_body (.string hs) h
  | word hword =>
    cases hword with
    | null =>
      cases hnext
      exact follows_body .null h
    | true =>
      cases hnext
      exact follows_body .true h
    | false =>
      cases hnext
      exact follows_body .false h
    | number hn =>
      cases hnext
      exact follows_body (.number hn) h
  -- what closes or separates cannot stand where a value is expected
  | closeArray | closeObject | comma | colon => cases hnext

/-- The bracket that closes an array. -/
theorem behind_closeArray {before : List (Json Text)}
    (outer : Behind tree frames (.array (value :: before).reverse) rest) :
    Behind tree (.items before :: frames) value (.char ']' :: rest) := by
  rw [← List.append_nil (value :: before).reverse] at outer
  exact Behind.items Blanks.nil (List.forall_mem_nil _) outer

/-- The bracket that closes an object. -/
theorem behind_closeObject {before : List (Text × Json Text)} {name : Text}
    (outer : Behind tree frames (.object ((name, value) :: before).reverse) rest) :
    Behind tree (.member before name :: frames) value (.char '\x7d' :: rest) := by
  rw [← List.append_nil ((name, value) :: before).reverse] at outer
  exact Behind.members Blanks.nil (List.forall_mem_nil _) outer

/-- A comma or a closing bracket behind a completed value. -/
theorem behind_leave (hlexeme : Lexeme letters token)
    (hnext : Reading.leave? value frames token = some next) (h : Follows tree next rest) :
    Behind tree frames value (letters ++ rest) := by
  unfold Reading.leave? at hnext
  split at hnext
  · -- a comma: the next item is the first of those that are still missing
    cases hnext
    cases hlexeme
    obtain ⟨e, elements, later, rfl, each, outer⟩ := h.exists_elements
    have hbehind := Behind.items Blanks.nil each outer
    rwa [List.map_cons, behindFirst_cons, List.nil_append, List.cons_append,
      List.append_assoc] at hbehind
  · cases hnext
    cases hlexeme
    cases h with
    | complete h => exact behind_closeArray h
  · -- a comma, too, but now a member is next
    cases hnext
    cases hlexeme
    obtain ⟨m, members, later, rfl, each, outer⟩ := h.exists_members
    have hbehind := Behind.members Blanks.nil each outer
    rwa [List.map_cons, behindFirst_cons, List.nil_append, List.cons_append,
      List.append_assoc] at hbehind
  · cases hnext
    cases hlexeme
    cases h with
    | complete h => exact behind_closeObject h
  · cases hnext

/-- **One step backwards over a token.** -/
theorem follows_token (hlexeme : Lexeme letters token) (hnext : reading.next? token = some next)
    (h : Follows tree next rest) : Follows tree reading (letters ++ rest) := by
  unfold Reading.next? at hnext
  split at hnext
  · exact follows_enter hlexeme hnext h
  · -- an array was opened and is closed at once
    cases hnext
    cases hlexeme
    cases h with
    | complete h => exact .emptyArray Blanks.nil h
  · exact .firstItem (follows_enter hlexeme hnext h)
  · -- likewise an object
    cases hnext
    cases hlexeme
    cases h with
    | complete h => exact .emptyObject Blanks.nil h
  · -- the first name of an object, and any other one
    cases hnext
    cases hlexeme with
    | string hs => exact .firstName (.name Blanks.nil hs h)
  · cases hnext
    cases hlexeme with
    | string hs => exact .name Blanks.nil hs h
  · cases hnext
    cases hlexeme
    exact .colon Blanks.nil h
  · exact .complete (behind_leave hlexeme hnext h)
  · -- nothing else may follow
    cases hnext

/-! ## Texts -/

theorem follows_end (h : reading.result? = some tree) : Follows tree reading [] := by
  unfold Reading.result? at h
  split at h
  · cases h
    exact .complete (.nothing Blanks.nil)
  · cases h

/-- **A whole text backwards.** By induction on the fuel of the scanner, which is spent on one blank
or one token at a time. -/
theorem follows_of_scan {fuel : Nat} {tokens : List Token} {final : Reading}
    (hscan : Token.scanWithin fuel letters = some tokens)
    (hfinal : tokens.foldlM Reading.next? reading = some final)
    (hresult : final.result? = some tree) : Follows tree reading letters := by
  induction fuel generalizing letters tokens reading with
  | zero =>
    cases letters with
    | nil =>
      cases hscan
      cases hfinal
      exact follows_end hresult
    | cons letter letters => cases hscan
  | succ fuel ih =>
    cases letters with
    | nil =>
      cases hscan
      cases hfinal
      exact follows_end hresult
    | cons letter letters =>
      unfold Token.scanWithin at hscan
      split at hscan
      · next hblank => exact (ih hscan hfinal).blank hblank
      · obtain ⟨⟨token, rest⟩, hfront, hscan⟩ := Option.bind_eq_some_iff.mp hscan
        obtain ⟨others, hothers, hscan⟩ := Option.bind_eq_some_iff.mp hscan
        cases hscan
        rw [List.foldlM_cons] at hfinal
        obtain ⟨next, hnext, hfinal⟩ := Option.bind_eq_some_iff.mp hfinal
        -- the text in front of the rest is the lexeme of the token
        obtain ⟨front, htext, hlexeme⟩ := lexeme_of_front? hfront
        rw [htext]
        exact follows_token hlexeme hnext (ih hothers hfinal)

/-- **What is read from a text** was written there. -/
theorem writesText_of_read? {text : Text} (h : read? text = some tree) : WritesText text tree := by
  unfold read? ofTokens? at h
  obtain ⟨tokens, hscan, h⟩ := Option.bind_eq_some_iff.mp h
  obtain ⟨final, hfinal, hresult⟩ := Option.bind_eq_some_iff.mp h
  have hfollows : Follows tree (.atValue []) text.letters := follows_of_scan hscan hfinal hresult
  -- no container is open at the start, so the value is followed by blanks only
  generalize htext : text.letters = letters at hfollows
  cases hfollows with
  | @value _ _ blanks body after hblanks hbody h =>
    cases h with
    | nothing hafter => exact ⟨⟨blanks, body, after, tree, hblanks, hafter⟩, htext, rfl, hbody⟩

/-- **The texts that are read as a tree** are those that write it. -/
theorem read?_eq_some_iff {text : Text} : read? text = some tree ↔ WritesText text tree :=
  ⟨writesText_of_read?, WritesText.read?_eq⟩

/-- No text writes two trees. -/
theorem WritesText.unique {text : Text} {other : Json Text} (h : WritesText text tree)
    (hother : WritesText text other) : tree = other :=
  Option.some.inj (h.read?_eq.symm.trans hother.read?_eq)

/-- A text is refused if it writes no tree. -/
theorem read?_eq_none_iff {text : Text} : read? text = none ↔ ¬ ∃ tree, WritesText text tree := by
  simp only [← read?_eq_some_iff, Option.eq_none_iff_forall_ne_some, ne_eq, not_exists]

end Json

end BoundedJobs
