import FacetedSearch.Json.Tree
import FacetedSearch.Table

/-!
# Reading JSON texts

The value of a text is read off its tree. What is read must have values throughout, with containers at most 127
deep. A skipped member needs a name that can be read, and a text that is well formed.
-/

namespace FacetedSearch.Json

/-! ## Outlines -/

/-- Which members of a value are read: a record reads the members it knows and skips all others. -/
inductive Outline where
  | whole
  /-- The fields of a record by name; in an array they stand in their order. -/
  | record (fields : List (String × Outline))
  /-- Every member of an object, each as `entry` says. -/
  | table (entry : Outline)
  /-- Every item of an array, each as `item` says. -/
  | list (item : Outline)

namespace Outline

def ofFields (names : List String) : Outline := .record (names.map (·, .whole))

/-- What is read of the item at place `i` of an array. -/
def item (i : Nat) : Outline → Outline
  | .record fields => (fields[i]?.map Prod.snd).getD .whole
  | .list item => item
  | .table _ | .whole => .whole

/-- What is read of the member called `name`, if it is not skipped. -/
def member? (name : String) : Outline → Option Outline
  | .record fields => Table.find? name fields
  | .table entry => some entry
  | .list _ | .whole => some .whole

end Outline

/-! ## Values -/

/-- How deep the containers that are read may be nested. -/
def maxDepth : Nat := 127

mutual

/-- What an outline reads of a tree with at most `depth` containers inside each other. -/
def Tree.value? (outline : Outline) (depth : Nat) : Tree → Option Json
  | .leaf v => v
  | .array items =>
    match depth with
    | 0 => none
    | depth + 1 => (Tree.items? outline depth 0 items).map .arr
  | .object members =>
    match depth with
    | 0 => none
    | depth + 1 => (Tree.members? outline depth members).map .obj

/-- The items of an array from place `i` on. -/
def Tree.items? (outline : Outline) (depth i : Nat) : List Tree → Option (List Json)
  | [] => some []
  | t :: rest =>
    match t.value? (outline.item i) depth, Tree.items? outline depth (i + 1) rest with
    | some v, some vs => some (v :: vs)
    | _, _ => none

/-- The members of an object that are not skipped. -/
def Tree.members? (outline : Outline) (depth : Nat) :
    List (Option String × Tree) → Option (List (String × Json))
  | [] => some []
  | (none, _) :: _ => none
  | (some name, t) :: rest =>
    match outline.member? name with
    | none => Tree.members? outline depth rest
    | some inner =>
      match t.value? inner depth, Tree.members? outline depth rest with
      | some v, some vs => some ((name, v) :: vs)
      | _, _ => none

end

/-- What an outline reads of a text, repeated names included. -/
def parse? (outline : Outline) (s : String) : Option Json :=
  (Tree.ofText? s).bind (·.value? outline maxDepth)

/-- The whole value of a text; of a repeated name the last value counts. -/
def read? (s : String) : Option Json := (parse? .whole s).map collapse

end FacetedSearch.Json
