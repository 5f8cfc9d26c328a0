import BoundedJobs.Number.Text
import BoundedJobs.Text.Basic

/-!
# JSON trees

* `Json` — a tree as it is written: the members of an object stand in the order of the text, and a
  name that occurs twice stands there twice. Its strings are made of characters, unless another kind
  of texts is asked for;
* `Json.member?` — what a name means in an object: of two members with one name the last counts;
* `Json.map` — the same tree with other strings.
-/

namespace BoundedJobs

/-- A JSON value. -/
inductive Json (τ : Type := String) where
  | null
  | bool (value : Bool)
  | number (value : Number)
  | string (value : τ)
  | array (items : List (Json τ))
  | object (members : List (τ × Json τ))
  deriving Inhabited

namespace Json

variable {τ σ : Type}

/-- The last entry under a name, in a list of named entries. -/
def lookupLast {α : Type} [DecidableEq τ] (name : τ) (entries : List (τ × α)) : Option α :=
  (entries.reverse.find? (·.1 == name)).map (·.2)

/-- The member of an object under a name; the last one when the name occurs more than once. -/
def member? [DecidableEq τ] (name : τ) : Json τ → Option (Json τ)
  | object members => lookupLast name members
  | _ => none

mutual

/-- A tree with other strings in the place of its own. -/
def map (f : τ → σ) : Json τ → Json σ
  | null => null
  | bool value => bool value
  | number value => number value
  | string value => string (f value)
  | array items => array (mapItems f items)
  | object members => object (mapMembers f members)

def mapItems (f : τ → σ) : List (Json τ) → List (Json σ)
  | [] => []
  | item :: items => map f item :: mapItems f items

def mapMembers (f : τ → σ) : List (τ × Json τ) → List (σ × Json σ)
  | [] => []
  | (name, value) :: members => (f name, map f value) :: mapMembers f members

end

end Json

end BoundedJobs
