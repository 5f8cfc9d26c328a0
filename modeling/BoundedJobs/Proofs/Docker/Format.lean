import BoundedJobs.Proofs.Docker.Info
import BoundedJobs.Proofs.Issues
import BoundedJobs.Proofs.Json.Recognition

/-!
# The format of an answer

Which answers of the daemon are read is a question about their text: they must be written as JSON,
as an object in which four names are looked at. Of everything else — other members, their order,
earlier members of the same name and blanks — the result is independent. A text that is refused is
refused in one of two ways, for not being JSON or for not having the format; nothing that was read
from a text refuses to be looked at, so there is no third way.

* `Docker.Info.Form` — the format, on the members of an object;
* `Docker.Info.shows_ofJson_iff` — these are the fields that a check of the answer asks for;
* `Docker.Info.shape_not_refuses` — what is wrong with a tree is always listed;
* `Docker.Info.shape_congr` — objects that agree in the four names are checked alike;
* `Docker.Info.parse_exactly` — which answers are read, and how any other is refused.
-/

namespace BoundedJobs

namespace Docker.Info

variable {answer : Text} {info : Info} {members : List (Text × Json Text)}

/-- The names that are looked at. -/
def names : List String := ["OperatingSystem", "Labels", "NCPU", "MemTotal"]

/-- **The format of an answer.** The CPU count must be there and be whole. The others may be
missing, and labels may also be `null`. Of two members with one name the last counts. -/
structure Form (members : List (Text × Json Text)) (info : Info) : Prop where
  system : Json.lookupLast (.ofString "OperatingSystem") members = none ∧
      info.operatingSystem = .ofString "" ∨
    Json.lookupLast (.ofString "OperatingSystem") members = some (.string info.operatingSystem)
  labels : (Json.lookupLast (.ofString "Labels") members = none ∨
      Json.lookupLast (.ofString "Labels") members = some .null) ∧ info.labels = [] ∨
    Json.lookupLast (.ofString "Labels") members = some (.array (info.labels.map .string))
  ncpu : Json.lookupLast (.ofString "NCPU") members = some (.number (.finite info.ncpu))
  memory : Json.lookupLast (.ofString "MemTotal") members = none ∧ info.memTotal = 0 ∨
    Json.lookupLast (.ofString "MemTotal") members = some (.number (.finite info.memTotal))

/-- What the fields of an answer show is what stands in its text. -/
theorem shows_ofJson_iff : Shows (Value.ofJson (.object members)) info ↔ Form members info := by
  -- each way in which a field can show something is one lookup in the text
  have habsent (name : String) : (Value.ofJson (.object members)).field name = .absent ↔
      Json.lookupLast (.ofString name) members = none :=
    Value.field_ofJson_eq_absent_iff
  have htext (name : String) (s : Text) : (Value.ofJson (.object members)).field name = .text s ↔
      Json.lookupLast (.ofString name) members = some (.string s) :=
    Value.field_ofJson_eq_iff fun _ => Value.ofJson_eq_text_iff
  have hnull (name : String) : (Value.ofJson (.object members)).field name = .null ↔
      Json.lookupLast (.ofString name) members = some .null :=
    Value.field_ofJson_eq_iff fun _ => Value.ofJson_eq_null_iff
  have htexts (name : String) (texts : List Text) :
      (Value.ofJson (.object members)).field name = .array (texts.map .text) ↔
        Json.lookupLast (.ofString name) members = some (.array (texts.map .string)) :=
    Value.field_ofJson_eq_iff fun _ => Value.ofJson_eq_texts_iff
  -- `4`, `4.0` and `40e-1` are one number, so one number is left to be found
  have hwhole (name : String) (i : Int) :
      (∃ n, (Value.ofJson (.object members)).field name = .number n ∧ n.int? = some i) ↔
        Json.lookupLast (.ofString name) members = some (.number (.finite i)) := by
    have hnumber : (Value.ofJson (.object members)).field name = .number (.finite i) ↔
        Json.lookupLast (.ofString name) members = some (.number (.finite i)) :=
      Value.field_ofJson_eq_iff fun _ => Value.ofJson_eq_number_iff
    rw [← hnumber]
    constructor
    · rintro ⟨n, hfield, hint⟩
      rwa [← Number.eq_of_int? hint]
    · intro hfield
      exact ⟨_, hfield, Number.int?_finite i⟩
  constructor
  · rintro ⟨hsystem, hlabels, hncpu, hmemory⟩
    rw [habsent, htext] at hsystem
    rw [habsent, hnull, htexts] at hlabels
    rw [hwhole] at hncpu
    rw [habsent, hwhole] at hmemory
    exact ⟨hsystem, hlabels, hncpu, hmemory⟩
  · rintro ⟨hsystem, hlabels, hncpu, hmemory⟩
    constructor
    · rwa [habsent, htext]
    · rwa [habsent, hnull, htexts]
    · rwa [hwhole]
    · rwa [habsent, hwhole]

/-- Objects that agree in the four names are checked alike, whatever else they have. -/
theorem shape_congr {others : List (Text × Json Text)}
    (h : ∀ name ∈ names,
      Json.lookupLast (.ofString name) others = Json.lookupLast (.ofString name) members) :
    shape (Value.ofJson (.object others)) = shape (Value.ofJson (.object members)) := by
  have hfield : ∀ name ∈ names, (Value.ofJson (.object others)).field name =
      (Value.ofJson (.object members)).field name := by
    intro name hname
    rw [Value.field_ofJson, Value.field_ofJson]
    exact congrArg (fun member? => (member?.map Value.ofJson).getD .absent) (h name hname)
  have hsystem := hfield "OperatingSystem" (by decide)
  have hlabels := hfield "Labels" (by decide)
  have hncpu := hfield "NCPU" (by decide)
  have hmemory := hfield "MemTotal" (by decide)
  -- the checks look at nothing but these fields
  unfold shape Shape.objectWith
  change Except.map _ _ = Except.map _ _
  unfold Shape.fieldOr Shape.field
  rw [hsystem, hlabels, hncpu, hmemory]

/-! ## What is wrong is listed -/

theorem labelsShape_not_refuses (tree : Json Text) :
    ¬ (labelsShape (Value.ofJson tree)).Refuses := by
  unfold labelsShape
  split
  · exact nofun
  · rw [Shape.refuses_arrayOf]
    rintro (hrevoked | ⟨elements, helements, element, hmem, hrefuses⟩)
    · exact Value.ofJson_ne_revoked tree hrevoked
    · -- the elements were read from the text as well
      cases tree with
      | array items =>
        cases helements
        rw [Value.ofItems_eq] at hmem
        obtain ⟨item, -, rfl⟩ := List.mem_map.mp hmem
        exact Value.ofJson_ne_revoked item (Shape.refuses_string.mp hrefuses)
      | _ => cases helements

/-- **What was read from a text can be looked at**, so all that is wrong with it is listed. -/
theorem shape_not_refuses (tree : Json Text) : ¬ (shape (Value.ofJson tree)).Refuses := by
  have hfield (name : String) := Value.field_ofJson_ne_revoked name tree
  -- missing labels are a problem of their own, which can be listed
  have habsent : ¬ (labelsShape .absent).Refuses := by
    rintro ⟨issue, hmem, hproblem⟩
    rw [List.mem_singleton.mp hmem] at hproblem
    cases hproblem
  have hlabels : ¬ (labelsShape ((Value.ofJson tree).field "Labels")).Refuses := by
    rw [Value.field_ofJson]
    cases tree.member? (.ofString "Labels") with
    | none => exact habsent
    | some member => exact labelsShape_not_refuses member
  unfold shape
  rw [Shape.refuses_objectWith]
  rintro (hrevoked | ⟨-, hfields⟩)
  · exact Value.ofJson_ne_revoked tree hrevoked
  · rw [Shape.Checked.refuses_map, Shape.Checked.refuses_both, Shape.Checked.refuses_both,
      Shape.Checked.refuses_both, Shape.refuses_field, Shape.refuses_integer,
      Shape.refuses_fieldOr habsent] at hfields
    have hstring : ¬ (Shape.string (.absent : Value Text)).Refuses :=
      fun h => nomatch Shape.refuses_string.mp h
    have hinteger : ¬ (Shape.integer (.absent : Value Text)).Refuses :=
      fun h => nomatch Shape.refuses_integer.mp h
    rw [Shape.refuses_fieldOr hstring, Shape.refuses_string, Shape.refuses_fieldOr hinteger,
      Shape.refuses_integer] at hfields
    rcases hfields with hsystem | hrefuses | hncpu | hmemory
    · exact hfield _ hsystem
    · exact hlabels hrefuses
    · exact hfield _ hncpu
    · exact hfield _ hmemory

/-! ## Answers -/

/-- The answers that are read are those of the format. -/
theorem parse_eq_ok_iff_form :
    parse answer = .ok info ↔
      ∃ members, Json.WritesText answer (.object members) ∧ Form members info := by
  simp only [parse_eq_ok_iff, shows_ofJson_iff, Json.read?_eq_some_iff]

/-- A text that writes a tree is read, or it is refused for its shape. -/
theorem parse_of_writes {tree : Json Text} (h : Json.WritesText answer tree) :
    (∃ info, parse answer = .ok info) ∨
      ∃ fault, parse answer = .error fault ∧ fault.kind = .validation := by
  unfold parse
  rw [h.read?_eq]
  change (∃ info, Shape.demand _ (shape (Value.ofJson tree)) = .ok info) ∨
    ∃ fault, Shape.demand _ (shape (Value.ofJson tree)) = .error fault ∧ _
  have hlisted := shape_not_refuses tree
  cases hshape : shape (Value.ofJson tree) with
  | ok info => exact Or.inl ⟨info, rfl⟩
  | error found =>
    rw [hshape] at hlisted
    refine Or.inr ⟨_, rfl, ?_⟩
    rw [Shape.fault_of_not_refuses hlisted]

/-- A text that writes no tree is refused as such. -/
theorem parse_of_not_writes (h : ¬ ∃ tree, Json.WritesText answer tree) :
    parse answer = .error notJson := by
  unfold parse
  rw [Json.read?_eq_none_iff.mpr h]

/-- **Which answers are read.** For every text: it is read exactly if it writes an object that has
the format, and the result is what the format says; it is refused with a `DockerError` exactly if it
writes no tree, and with a `ValidationError` exactly if it writes a tree but no object of the
format. The result depends on nothing but the last members under the four names. -/
theorem parse_exactly (answer : Text) :
    (∀ info, parse answer = .ok info ↔
      ∃ members, Json.WritesText answer (.object members) ∧ Form members info) ∧
    ((∃ fault, parse answer = .error fault ∧ fault.kind = .docker) ↔
      ¬ ∃ tree, Json.WritesText answer tree) ∧
    ((∃ fault, parse answer = .error fault ∧ fault.kind = .validation) ↔
      (∃ tree, Json.WritesText answer tree) ∧
        ¬ ∃ members info, Json.WritesText answer (.object members) ∧ Form members info) ∧
    ∀ other members others, Json.WritesText answer (.object members) →
      Json.WritesText other (.object others) →
      (∀ name ∈ names,
        Json.lookupLast (.ofString name) others = Json.lookupLast (.ofString name) members) →
      parse other = parse answer := by
  refine ⟨fun info => parse_eq_ok_iff_form, ?docker, ?validation, ?alike⟩
  case docker =>
    constructor
    · -- a text that writes a tree is refused for its shape, if at all
      rintro ⟨fault, hfault, hkind⟩ ⟨tree, hwrites⟩
      rcases parse_of_writes hwrites with ⟨info, hinfo⟩ | ⟨shaped, hshaped, hvalidation⟩
      · rw [hinfo] at hfault
        cases hfault
      · obtain rfl := Except.error.inj (hfault.symm.trans hshaped)
        rw [hkind] at hvalidation
        cases hvalidation
    · intro hnone
      exact ⟨notJson, parse_of_not_writes hnone, rfl⟩
  case validation =>
    constructor
    · rintro ⟨fault, hfault, hkind⟩
      constructor
      · by_contra hnone
        obtain rfl := Except.error.inj (hfault.symm.trans (parse_of_not_writes hnone))
        cases hkind
      · rintro ⟨members, info, hform⟩
        rw [parse_eq_ok_iff_form.mpr ⟨members, hform⟩] at hfault
        cases hfault
    · rintro ⟨⟨tree, hwrites⟩, hnone⟩
      refine (parse_of_writes hwrites).resolve_left ?_
      rintro ⟨info, hinfo⟩
      obtain ⟨members, hform⟩ := parse_eq_ok_iff_form.mp hinfo
      exact hnone ⟨members, info, hform⟩
  case alike =>
    intro other members others hwrites hother hagree
    unfold parse
    rw [hwrites.read?_eq, hother.read?_eq]
    exact congrArg (Shape.demand "docker info") (shape_congr hagree)

/-- An answer with a name that occurs twice and an escaped half of a character is read like one
without the first of the two and with an escape in the name. -/
theorem parse_exactly_respelled :
    let answer : Text :=
      .ofString "\x7b\"NCPU\":[],\"OperatingSystem\":\"\\ud800\",\"NCPU\":40e-1\x7d"
    let other : Text :=
      .ofString " \x7b\"NC\\u0050U\":4,\"OperatingSystem\":\"\\uD800\"\x7d"
    parse answer =
        .ok { operatingSystem := ⟨[.half true 0], rfl⟩, labels := [], ncpu := 4, memTotal := 0 } ∧
      parse other = parse answer := by
  intro answer other
  have htwice : Json.WritesText answer
      (.object [(.ofString "NCPU", .array []),
        (.ofString "OperatingSystem", .string ⟨[.half true 0], rfl⟩),
        (.ofString "NCPU", .number (.finite 4))]) :=
    Json.read?_eq_some_iff.mp rfl
  have honce : Json.WritesText other
      (.object [(.ofString "NCPU", .number (.finite 4)),
        (.ofString "OperatingSystem", .string ⟨[.half true 0], rfl⟩)]) :=
    Json.read?_eq_some_iff.mp rfl
  obtain ⟨hok, -, -, halike⟩ := parse_exactly answer
  constructor
  · exact (hok _).mpr ⟨_, htwice, .inr rfl, .inl ⟨.inl rfl, rfl⟩, rfl, .inl ⟨rfl, rfl⟩⟩
  · -- the same four lookups, and nothing else, decide what is read
    refine halike _ _ _ htwice honce fun name hname => ?_
    simp only [names, List.mem_cons, List.not_mem_nil, or_false] at hname
    rcases hname with rfl | rfl | rfl | rfl <;> rfl

end Docker.Info

end BoundedJobs
