import FacetedSearch.Json.Basic

/-!
# Records

Typed values in JSON. A record is an object whose unknown members are ignored, or an array of its fields in
their order. No kind of value is taken for another, except that an integer may stand for a binary64 number.
-/

namespace FacetedSearch.Json

def bool? : Json → Option Bool
  | .bool b => some b
  | _ => none

def nat? : Json → Option Nat
  | .num n => n.toNat?
  | _ => none

def float? : Json → Option Float
  | .num n => some n.toFloat
  | _ => none

/-- Every item of an array read by `read`. -/
def list? {α : Type _} (read : Json → Option α) : Json → Option (List α)
  | .arr items => items.mapM read
  | _ => none

def strings? : Json → Option (List String) := list? str?

/-- Null stands for no value. -/
def nullable? {α : Type _} (read : Json → Option α) : Json → Option (Option α)
  | .null => some none
  | v => (read v).map some

/-- The name of a constant: a text, or an object that maps it to null. -/
def tag? : Json → Option String
  | .str s => some s
  | .obj [(s, .null)] => some s
  | _ => none

/-- The known fields of a record that are present. -/
structure Record where
  fields : List (String × Json)

/-- The fields called `names`. A name may not be repeated, and an array may not be longer than the record. -/
def record? (names : List String) : Json → Option Record
  | .obj members =>
    let known := members.filter fun member => names.contains member.1
    if (known.map Prod.fst).Nodup then some ⟨known⟩ else none
  | .arr items => if items.length ≤ names.length then some ⟨names.zip items⟩ else none
  | _ => none

namespace Record

variable {α : Type _}

/-- A field that has a value when it is absent. -/
def field (r : Record) (name : String) (read : Json → Option α) (default : α) : Option α :=
  match Table.find? name r.fields with
  | some v => read v
  | none => some default

/-- A field that must be present. -/
def required (r : Record) (name : String) (read : Json → Option α) : Option α :=
  (Table.find? name r.fields).bind read

end Record

end FacetedSearch.Json
