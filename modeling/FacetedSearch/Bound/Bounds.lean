import FacetedSearch.Bound.Value
import FacetedSearch.Json.Record

/-!
# Bounds

Up to four bounds of one range, one per direction. A value lies within the bounds if it satisfies each of them.
-/

namespace FacetedSearch.Bound

inductive Direction where
  | gte | gt | lte | lt
deriving DecidableEq, Repr

namespace Direction

def name : Direction → String
  | gte => "gte"
  | gt => "gt"
  | lte => "lte"
  | lt => "lt"

def ofName? : String → Option Direction
  | "gte" => some gte
  | "gt" => some gt
  | "lte" => some lte
  | "lt" => some lt
  | _ => none

def ofJson? (v : Json) : Option Direction := v.tag?.bind ofName?

/-- Whether the direction bounds from below. -/
def isLower : Direction → Bool
  | gte | gt => true
  | lte | lt => false

/-- Whether a value that compares with the bound in this way satisfies it. -/
def admits : Direction → Ordering → Bool
  | gte, o => o != .lt
  | gt, o => o == .gt
  | lte, o => o != .gt
  | lt, o => o == .lt

end Direction

end FacetedSearch.Bound

namespace FacetedSearch

structure Bounds where
  gte : Option Bound.Value := none
  gt : Option Bound.Value := none
  lte : Option Bound.Value := none
  lt : Option Bound.Value := none
deriving DecidableEq

namespace Bounds

open FacetedSearch.Bound

def get (b : Bounds) : Direction → Option Value
  | .gte => b.gte
  | .gt => b.gt
  | .lte => b.lte
  | .lt => b.lt

def set (b : Bounds) (d : Direction) (v : Value) : Bounds :=
  match d with
  | .gte => { b with gte := some v }
  | .gt => { b with gt := some v }
  | .lte => { b with lte := some v }
  | .lt => { b with lt := some v }

def openBelow (b : Bounds) : Bool := b.gte.isNone && b.gt.isNone

def openAbove (b : Bounds) : Bool := b.lte.isNone && b.lt.isNone

def isEmpty (b : Bounds) : Bool := b.openBelow && b.openAbove

/-- Whether `v` satisfies the bound in direction `d`, if there is one. -/
def admits (b : Bounds) (d : Direction) (v : Value) : Bool :=
  (b.get d).all fun bound => d.admits (v.compare bound)

def contains (b : Bounds) (v : Value) : Bool :=
  b.admits .gte v && b.admits .gt v && b.admits .lte v && b.admits .lt v

theorem get_set (b : Bounds) (d e : Direction) (v : Value) :
    (b.set d v).get e = if d = e then some v else b.get e := by
  cases d <;> cases e <;> rfl

/-! ## JSON form -/

def entry (b : Bounds) (d : Direction) : List (String × Json) :=
  ((b.get d).map fun v => (d.name, v.toJson)).toList

def toJson (b : Bounds) : Json :=
  .obj (b.entry .gte ++ b.entry .gt ++ b.entry .lte ++ b.entry .lt)

/-- A record of bounds; null stands for an unset one. An array must give all four. -/
def ofJson? (v : Json) : Option Bounds := do
  let complete : Bool := match v with
    | .arr items => items.length == 4
    | _ => true
  guard complete
  let r ← v.record? ["gte", "gt", "lte", "lt"]
  let bound := Json.nullable? Value.ofJson?
  return { gte := ← r.field "gte" bound none, gt := ← r.field "gt" bound none
           lte := ← r.field "lte" bound none, lt := ← r.field "lt" bound none }

end Bounds

end FacetedSearch
