import BoundedJobs.Docker.Probe
import BoundedJobs.Proofs.Json.Members
import BoundedJobs.Proofs.Json.Recognition
import BoundedJobs.Proofs.Shape

/-!
# What the daemon reports

The daemon's answer is a text that may hold anything. It is read if it is an object with the fields
that are asked for, and what is read of it stands there. The CPU count and the size of the memory
are whole numbers that the text writes, so they are numbers of their own and are not rounded when
they are used.

* `Docker.Info.Shows` — the fields of an answer and what is read of them;
* `Docker.Info.parse_eq_ok_iff` — these are the answers that are read;
* `Docker.Info.whole_ncpu`, `Docker.Info.whole_memTotal` — the numbers are their own nearest ones.
-/

namespace BoundedJobs

variable {name : String}

namespace Docker.Info

variable {answer : Text} {info : Info} {value : Value Text}

/-- **What is read of the fields of an answer.** Only the CPU count must be there. -/
structure Shows (value : Value Text) (info : Info) : Prop where
  system : value.field "OperatingSystem" = .absent ∧ info.operatingSystem = .ofString "" ∨
    value.field "OperatingSystem" = .text info.operatingSystem
  labels : (value.field "Labels" = .absent ∨ value.field "Labels" = .null) ∧ info.labels = [] ∨
    value.field "Labels" = .array (info.labels.map .text)
  ncpu : ∃ n, value.field "NCPU" = .number n ∧ n.int? = some info.ncpu
  memory : value.field "MemTotal" = .absent ∧ info.memTotal = 0 ∨
    ∃ n, value.field "MemTotal" = .number n ∧ n.int? = some info.memTotal

theorem labels_eq_ok_iff {labels : List Text} :
    Shape.fieldOr "Labels" [] labelsShape value = .ok labels ↔
      (value.field "Labels" = .absent ∨ value.field "Labels" = .null) ∧ labels = [] ∨
        value.field "Labels" = .array (labels.map .text) := by
  have hshape : ∀ field, labelsShape field = .ok labels ↔
      field = .null ∧ labels = [] ∨ field = .array (labels.map .text) := by
    intro field
    unfold labelsShape
    split
    · simp [eq_comm]
    · next hnull => rw [Shape.arrayOf_string_eq_ok_iff, or_iff_right fun h => hnull h.1]
  rw [Shape.fieldOr_eq_ok_iff nofun, hshape, ← or_assoc, ← or_and_right]

/-- What has the shape of an answer shows the information. -/
theorem shows_of_shape (h : shape value = .ok info) : Shows value info := by
  obtain ⟨⟨system, labels, ncpu, memory⟩, hfields, rfl⟩ :=
    Shape.Checked.map_eq_ok_iff.mp (Shape.objectWith_eq_ok_iff.mp h).2.2
  simp only [Shape.Checked.both_eq_ok_iff] at hfields
  obtain ⟨hsystem, hlabels, hncpu, hmemory⟩ := hfields
  exact
    { system := ((Shape.fieldOr_eq_ok_iff nofun).mp hsystem).imp_right Shape.string_eq_ok_iff.mp
      labels := labels_eq_ok_iff.mp hlabels
      ncpu := Shape.integer_eq_ok_iff.mp (Shape.field_eq_ok_iff.mp hncpu)
      memory := ((Shape.fieldOr_eq_ok_iff nofun).mp hmemory).imp_right Shape.integer_eq_ok_iff.mp }

/-- An object that shows information has the shape of an answer. -/
theorem Shows.shape_eq {members : List (Text × Json Text)}
    (shows : Shows (Value.ofJson (.object members)) info) :
    shape (Value.ofJson (.object members)) = .ok info := by
  refine Shape.Checked.map_eq_ok_iff.mpr
    ⟨(info.operatingSystem, info.labels, info.ncpu, info.memTotal), ?_, rfl⟩
  simp only [Shape.Checked.both_eq_ok_iff]
  refine ⟨?_, labels_eq_ok_iff.mpr shows.labels, ?_, ?_⟩
  · exact (Shape.fieldOr_eq_ok_iff nofun).mpr (shows.system.imp_right Shape.string_eq_ok_iff.mpr)
  · exact Shape.field_eq_ok_iff.mpr (Shape.integer_eq_ok_iff.mpr shows.ncpu)
  · exact (Shape.fieldOr_eq_ok_iff nofun).mpr (shows.memory.imp_right Shape.integer_eq_ok_iff.mpr)

/-- **The answers that are read.** -/
theorem parse_eq_ok_iff :
    parse answer = .ok info ↔ ∃ members, Json.read? answer = some (.object members) ∧
      Shows (Value.ofJson (.object members)) info := by
  unfold parse
  constructor
  · intro h
    split at h
    · cases h
    · next tree htree =>
      have shows := shows_of_shape (Shape.demand_eq_ok_iff.mp h)
      -- only an object has the CPU count as a field
      obtain ⟨n, hfield, -⟩ := shows.ncpu
      obtain ⟨members, rfl, -⟩ := Value.exists_member_of_field hfield
      exact ⟨members, htree, shows⟩
  · rintro ⟨members, htree, shows⟩
    rw [htree]
    exact Shape.demand_eq_ok_iff.mpr shows.shape_eq

/-- A whole number that is a field of an answer is a number of its own. -/
theorem whole_of_field {tree : Json Text} {n : Number} {i : Int}
    (htree : Json.read? answer = some tree) (hfield : (Value.ofJson tree).field name = .number n)
    (hint : n.int? = some i) : Number.Whole i := by
  obtain ⟨members, rfl, member, hmember, hnumber⟩ := Value.exists_member_of_field hfield
  -- every numeral was rounded when it was read, so what is whole by now stays as it is
  obtain ⟨e, -, -, hwrites⟩ := Json.writesText_of_read? htree
  have hnumbers := hwrites.numbers fun _ _ h => h.exact
  cases hnumbers with
  | object hmembers =>
    have hexact : Json.Numbers Number.Exact (.number n : Json Text) :=
      hnumber ▸ hmembers member hmember
    cases hexact with
    | number hn => exact hn _ hint

/-- **The CPU count is a number of its own.** -/
theorem whole_ncpu (h : parse answer = .ok info) : Number.Whole info.ncpu := by
  obtain ⟨members, htree, shows⟩ := parse_eq_ok_iff.mp h
  obtain ⟨n, hfield, hint⟩ := shows.ncpu
  exact whole_of_field htree hfield hint

/-- **The size of the memory is a number of its own.** -/
theorem whole_memTotal (h : parse answer = .ok info) : Number.Whole info.memTotal := by
  obtain ⟨members, htree, shows⟩ := parse_eq_ok_iff.mp h
  rcases shows.memory with ⟨-, hzero⟩ | ⟨n, hfield, hint⟩
  · rw [hzero]
    exact Number.Whole.of_le (Nat.zero_le _)
  · exact whole_of_field htree hfield hint

end Docker.Info

end BoundedJobs
