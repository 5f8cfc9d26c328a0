import BoundedJobs.Value.Text
import BoundedJobs.Json.Text

/-!
# Values written as JSON

* `Value.dump` — the JSON of a value. Absent values and symbols are left out of objects and become
  `null` in arrays; a number that is no finite number becomes `null`; error objects and other
  objects without data of their own are empty. Unbounded integers and cyclic arrays are refused;
* `Value.ownFields` — the fields that an object shows, in the order in which they are written:
  names that are indices come first, in ascending order, then the others in the order in which
  they were given.
-/

namespace BoundedJobs

namespace Value

/-- The index that a name is, if it is one: a number below 2 ^ 32 - 1 in its shortest form. -/
def index? (name : String) : Option Nat :=
  let digits := name.toList
  if digits.isEmpty || !digits.all (fun c => '0' ≤ c && c ≤ '9') then none
  else if digits.head? == some '0' && digits.length != 1 then none
  else if 10 < digits.length then none
  else
    let value := digits.foldl (fun n c => n * 10 + (c.toNat - '0'.toNat)) 0
    if value < Nat.pow 2 32 - 1 then some value else none

/-- Named entries in the order in which an object shows them. -/
def ordered {α : Type} (fields : List (String × α)) : List (String × α) :=
  let indexed := fields.filterMap fun field => (index? field.1).map fun i => (i, field)
  let named := fields.filter fun field => (index? field.1).isNone
  (indexed.mergeSort fun a b => a.1 ≤ b.1).map (·.2) ++ named

/-- The data that an error object of this kind shows beside its message. -/
def kindFields (kind : Fault.Kind) : List (String × Value) :=
  if kind.isOwn then
    let extra : List (String × Value) :=
      match kind with
      | .parallel failures => [("failures", array (failures.map text))]
      | .command line exitCode signal =>
        [("command", text line), ("exitCode", exitCode.elim null number),
         ("signal", signal.elim null text)]
      | _ => []
    [("code", text (kind.code?.getD "")), ("name", text kind.name)] ++ extra
  else []

/-- The refusal to write a value as JSON. -/
def noJson : Fault := Fault.wrongType "Do not know how to serialize the value"

/-- The JSON of the data of an error object. -/
def kindJson (kind : Fault.Kind) : Json :=
  .object ((kindFields kind).map fun (name, value) =>
    (name, match value with
      | text t => .string t
      | number n => .number n
      | array items => .array (items.map fun item =>
          match item with
          | text t => .string t
          | _ => .null)
      | _ => .null))

mutual

/-- The JSON of a value, nothing for a value that JSON leaves out, or the error that writing it
raises. -/
def dump : Value → Except Fault (Option Json)
  | absent => .ok none
  | null => .ok (some .null)
  | bool value => .ok (some (.bool value))
  | number value => .ok (some (.number value))
  | integer _ => .error noJson
  | symbol _ => .ok none
  | text value => .ok (some (.string value))
  | array items => do
    let items ← dumpItems items
    return some (.array items)
  | loop _ => .error noJson
  | object fields => do
    let fields ← dumpFields fields
    return some (.object (ordered fields))
  | bare fields => do
    let fields ← dumpFields fields
    return some (.object (ordered fields))
  | fault kind _ _ => .ok (some (kindJson kind))
  | messaged _ | unreadable _ | map | tagged .. | unlabelled _ | convertible _ | unprintable _ =>
    .ok (some (.object []))
  | revoked => .error noAccess

def dumpItems : List Value → Except Fault (List Json)
  | [] => .ok []
  | item :: items => do
    let item ← dump item
    let items ← dumpItems items
    return item.getD .null :: items

def dumpFields : List (String × Value) → Except Fault (List (String × Json))
  | [] => .ok []
  | (name, value) :: fields => do
    let value ← dump value
    let fields ← dumpFields fields
    match value with
    | some value => return (name, value) :: fields
    | none => return fields

end

/-- The number of fields that a value shows: of an array its items, of a text its characters. -/
def shownFields : Value → Except Fault Nat
  | object fields | bare fields => .ok fields.length
  | array items => .ok items.length
  | text value => .ok value.length
  | fault kind _ _ => .ok (kindFields kind).length
  | convertible _ | unprintable _ => .ok 1
  | tagged _ throws => .ok (if throws then 1 else 0)
  | revoked => .error noAccess
  | _ => .ok 0

end Value

end BoundedJobs
