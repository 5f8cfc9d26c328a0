import BoundedJobs.Proofs.Json.Grammar
import Mathlib.Data.List.Forall2

/-!
# Reading undoes writing

The text of a tree is read as the tree, whatever its strings are and however deep it goes, if the
texts of its numbers are read as the numbers. Where a number is read as another one, the tree is
read with that one in its place.

* `Json.mapItems_eq`, `Json.mapMembers_eq` — other strings in a container are other strings in its
  entries, `Json.map_string_ofString` — a tree of characters is not changed by the detour over
  texts;
* `Json.ReadsAs` — the characters of a tree write a tree, so they are read as it wherever a value
  may stand;
* `Json.ReadsAs.array`, `Json.ReadsAs.object` — a container is read as one of what its entries are
  read as;
* `Json.Numbers.readsAs` — a tree of numbers that are read as themselves is read as itself;
* `Json.ReadsAs.parse?_compact`, `Json.parse?_compact` — so is the whole text of the tree.
-/

namespace BoundedJobs

theorem Text.string_ofString (s : String) : (Text.ofString s).string = s := by
  unfold string ofString
  have hshown : Letter.shown ∘ Letter.char = id := rfl
  rw [List.map_map, hshown, List.map_id, String.ofList_toList]

namespace Json

/-! ## Other strings -/

section

variable {τ σ : Type} (f : τ → σ)

theorem mapItems_eq (items : List (Json τ)) : mapItems f items = items.map (map f) := by
  induction items with
  | nil => rfl
  | cons item items ih => rw [mapItems, ih, List.map_cons]

theorem mapMembers_eq (members : List (τ × Json τ)) :
    mapMembers f members = members.map (Prod.map f (map f)) := by
  induction members with
  | nil => rfl
  | cons member members ih =>
    obtain ⟨name, value⟩ := member
    rw [mapMembers, ih, List.map_cons]
    rfl

end

mutual

/-- Characters are not changed by the detour over texts. -/
theorem map_string_ofString : ∀ tree : Json, (tree.map Text.ofString).map Text.string = tree
  | null => rfl
  | bool _ => rfl
  | number _ => rfl
  | string s => congrArg string (Text.string_ofString s)
  | array items => congrArg array (mapItems_string_ofString items)
  | object members => congrArg object (mapMembers_string_ofString members)

theorem mapItems_string_ofString :
    ∀ items : List Json, mapItems Text.string (mapItems Text.ofString items) = items
  | [] => rfl
  | item :: items => congrArg₂ (· :: ·) (map_string_ofString item) (mapItems_string_ofString items)

theorem mapMembers_string_ofString :
    ∀ members : List (String × Json),
      mapMembers Text.string (mapMembers Text.ofString members) = members
  | [] => rfl
  | (name, value) :: members =>
    congrArg₂ (· :: ·) (Prod.ext (Text.string_ofString name) (map_string_ofString value))
      (mapMembers_string_ofString members)

end

/-! ## What is written -/

theorem compactItems_eq (items : List Json) : compactItems items = items.map compactChars := by
  induction items with
  | nil => rfl
  | cons item items ih => rw [compactItems, ih, List.map_cons]

/-- The characters of a member. -/
def memberChars (member : String × Json) : List Char :=
  quotedChars member.1 ++ ':' :: compactChars member.2

theorem compactMembers_eq (members : List (String × Json)) :
    compactMembers members = members.map memberChars := by
  induction members with
  | nil => rfl
  | cons member members ih =>
    obtain ⟨name, value⟩ := member
    rw [compactMembers, ih, List.map_cons]
    rfl

theorem map_commaJoined (texts : List (List Char)) :
    (commaJoined texts).map .char = joinedByCommas (texts.map (·.map .char)) := by
  unfold commaJoined joinedByCommas
  induction texts with
  | nil => rfl
  | cons text texts ih =>
    cases texts with
    | nil => rw [List.map_singleton, List.intercalate_singleton, List.intercalate_singleton]
    | cons next texts =>
      rw [List.intercalate_cons_cons, List.map_append, List.map_append, ih]
      exact List.intercalate_cons_cons.symm

/-- A container between its brackets. -/
theorem map_bracketed (left right : Char) (texts : List (List Char)) :
    (left :: commaJoined texts ++ [right]).map .char =
      .char left :: (joinedByCommas (texts.map (·.map .char)) ++ [.char right]) := by
  rw [← map_commaJoined]
  exact List.map_append

theorem writesString_quotedChars (s : String) :
    WritesString ((quotedChars s).map .char) (.ofString s) := by
  obtain ⟨letters, hletters, hlexeme⟩ := lexeme_of_front? (front?_quotedChars s [])
  rw [List.append_cancel_right hletters]
  cases hlexeme with
  | string h => exact h

/-- **The characters of a tree write a tree.** -/
def ReadsAs (tree read : Json) : Prop :=
  Writes ((compactChars tree).map .char) (read.map Text.ofString)

/-- **A member is read as a member** of the same name. -/
def MemberReadsAs (member read : String × Json) : Prop :=
  member.1 = read.1 ∧ ReadsAs member.2 read.2

/-- A value without blanks around it. -/
def Element.bare (letters : List Letter) (value : Json Text) : Element :=
  ⟨[], letters, [], value, Blanks.nil, Blanks.nil⟩

theorem Element.text_bare (letters : List Letter) (value : Json Text) :
    (bare letters value).text = letters :=
  List.append_nil letters

/-- A member without blanks in it. -/
def Member.bare (name : String) (letters : List Letter) (value : Json Text) : Member :=
  ⟨[], (quotedChars name).map .char, [], .ofString name, .bare letters value, Blanks.nil,
    Blanks.nil, writesString_quotedChars name⟩

theorem Member.text_bare (name : String) (letters : List Letter) (value : Json Text) :
    (bare name letters value).text = (quotedChars name).map .char ++ .char ':' :: letters := by
  unfold text bare
  dsimp only
  rw [List.nil_append, List.append_nil, Element.text_bare]

/-! ## Containers -/

theorem exists_elements {items read : List Json} (h : List.Forall₂ ReadsAs items read) :
    ∃ elements : List Element,
      elements.map (·.text) = (items.map compactChars).map (·.map .char) ∧
      elements.map (·.value) = read.map (map Text.ofString) ∧
      ∀ e ∈ elements, Writes e.body e.value := by
  induction h with
  | nil => exact ⟨[], rfl, rfl, List.forall_mem_nil _⟩
  | @cons item result items read hitem _ ih =>
    obtain ⟨elements, htexts, hvalues, heach⟩ := ih
    refine ⟨.bare ((compactChars item).map .char) (result.map Text.ofString) :: elements, ?_, ?_,
      List.forall_mem_cons.mpr ⟨hitem, heach⟩⟩
    · rw [List.map_cons, htexts, Element.text_bare]
      rfl
    · rw [List.map_cons, hvalues]
      rfl

theorem exists_members {members read : List (String × Json)}
    (h : List.Forall₂ MemberReadsAs members read) :
    ∃ spelled : List Member,
      spelled.map (·.text) = (members.map memberChars).map (·.map .char) ∧
      spelled.map (·.entry) = read.map (Prod.map Text.ofString (map Text.ofString)) ∧
      ∀ m ∈ spelled, Writes m.element.body m.element.value := by
  induction h with
  | nil => exact ⟨[], rfl, rfl, List.forall_mem_nil _⟩
  | @cons member result members read hmember _ ih =>
    obtain ⟨spelled, htexts, hentries, heach⟩ := ih
    obtain ⟨hname, hvalue⟩ := hmember
    -- the writer puts no blanks anywhere
    let first :=
      Member.bare member.1 ((compactChars member.2).map .char) (result.2.map Text.ofString)
    refine ⟨first :: spelled, ?_, ?_, List.forall_mem_cons.mpr ⟨hvalue, heach⟩⟩
    · rw [List.map_cons, htexts, Member.text_bare, List.map_cons, List.map_cons]
      unfold memberChars
      rw [List.map_append, List.map_cons]
    · rw [List.map_cons, List.map_cons, hentries]
      exact congrArg (· :: _) (Prod.ext (congrArg Text.ofString hname) rfl)

theorem ReadsAs.array {items read : List Json} (h : List.Forall₂ ReadsAs items read) :
    ReadsAs (.array items) (.array read) := by
  obtain ⟨elements, htexts, hvalues, heach⟩ := exists_elements h
  unfold ReadsAs compactChars map
  rw [compactItems_eq, mapItems_eq, map_bracketed, ← htexts, ← hvalues]
  cases elements with
  | nil => exact .emptyArray Blanks.nil
  | cons e elements => exact .array (List.cons_ne_nil _ _) heach

theorem ReadsAs.object {members read : List (String × Json)}
    (h : List.Forall₂ MemberReadsAs members read) : ReadsAs (.object members) (.object read) := by
  obtain ⟨spelled, htexts, hentries, heach⟩ := exists_members h
  unfold ReadsAs compactChars map
  rw [compactMembers_eq, mapMembers_eq, map_bracketed, ← htexts, ← hentries]
  cases spelled with
  | nil => exact .emptyObject Blanks.nil
  | cons m spelled => exact .object (List.cons_ne_nil _ _) heach

/-! ## Trees -/

/-- A number whose text is read as a number is written by this text. -/
theorem NumberReadsAs.number {n m : Number} (h : NumberReadsAs n m) :
    ReadsAs (.number n) (.number m) :=
  Writes.number h.writes

theorem ReadsAs.string (s : String) : ReadsAs (.string s) (.string s) :=
  Writes.string (writesString_quotedChars s)

/-- **Trees.** By induction on the tree: a container is read as itself if its entries are. -/
theorem Numbers.readsAs {tree : Json} (h : tree.Numbers Legible) : ReadsAs tree tree := by
  induction h with
  | null => exact Writes.null
  | bool value =>
    cases value with
    | false => exact Writes.false
    | true => exact Writes.true
  | number hn => exact NumberReadsAs.number hn
  | string value => exact .string value
  | array _ ih => exact .array (List.forall₂_same.mpr ih)
  | object _ ih =>
    exact .object (List.forall₂_same.mpr fun member hmember => ⟨rfl, ih member hmember⟩)

/-- **A whole text.** -/
theorem ReadsAs.parse?_compact {tree read : Json} (h : ReadsAs tree read) :
    parse? tree.compact = some read := by
  let element := Element.bare ((compactChars tree).map .char) (read.map Text.ofString)
  have htext : (Text.ofString tree.compact).letters = element.text := by
    rw [Element.text_bare]
    exact congrArg (List.map Letter.char) String.toList_ofList
  have hwrites : WritesText (.ofString tree.compact) (read.map Text.ofString) :=
    ⟨element, htext, rfl, h⟩
  unfold parse?
  rw [hwrites.read?_eq, Option.map_some, map_string_ofString]

/-- **Reading undoes writing.** -/
theorem parse?_compact {tree : Json} (h : tree.Numbers Legible) :
    parse? tree.compact = some tree := h.readsAs.parse?_compact

end Json

end BoundedJobs
