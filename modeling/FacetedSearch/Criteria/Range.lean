import FacetedSearch.Bound.Day
import FacetedSearch.Index.Lookup

/-!
# Range criteria

The bounds asked for on one field. Of several bounds in one direction the widest counts. On numeric fields a
missing value may stand for zero.
-/

namespace FacetedSearch

open FacetedSearch.Bound

structure RangeCriterion where
  /-- As named in the request, without the range suffix. -/
  field : String
  queryField : String
  bounds : Bounds := {}
  isDate : Bool := false
  missingIsZero : Bool := false
  /-- Indexed path of the enclosing repeated sub-object. -/
  nestedPath : Option String := none
deriving DecidableEq

namespace RangeCriterion

def fresh (view : FieldView) (field : String) : RangeCriterion :=
  { field, queryField := view.settings.valueField field, isDate := view.isDate field
    missingIsZero := view.missingIsZero field, nestedPath := view.nestedPath? field }

/-- A literal as a bound of this field: dates are completed to minutes, numbers are read. -/
def boundValue (c : RangeCriterion) (d : Direction) (literal : String) : Value :=
  if c.isDate then .text (completeDay literal d) else .ofLiteral literal true

/-- Whether an earlier bound is at least as wide as a new one. -/
def isWider (d : Direction) (earlier new : Value) : Bool :=
  if d.isLower then (earlier.compare new).isLE else (earlier.compare new).isGE

/-- Adds a bound; the wider of two bounds in one direction stays. -/
def addBound (c : RangeCriterion) (d : Direction) (literal : String) : RangeCriterion :=
  let new := c.boundValue d literal
  if (c.bounds.get d).any (isWider d · new) then c else { c with bounds := c.bounds.set d new }

/-! ## Zero -/

def number? (c : RangeCriterion) (d : Direction) : Option Float := (c.bounds.get d).bind Value.toFloat?

/-- The lower end of the half-open interval: exclusive bounds are moved up by `epsilon`. -/
def lowerEnd (c : RangeCriterion) (epsilon : Float) : Float :=
  ((c.number? .gte).or ((c.number? .gt).map (· + epsilon))).getD (-1.0 / 0.0)

/-- The upper end of the half-open interval: inclusive bounds are moved up by `epsilon`. -/
def upperEnd (c : RangeCriterion) (epsilon : Float) : Float :=
  (((c.number? .lte).map (· + epsilon)).or (c.number? .lt)).getD (1.0 / 0.0)

/-- Whether a numeric range holds zero. -/
def includesZero (c : RangeCriterion) (epsilon : Float) : Bool :=
  !c.isDate && c.lowerEnd epsilon ≤ 0.0 && 0.0 < c.upperEnd epsilon

/-- Whether documents without the field are in the range. -/
def includesMissing (c : RangeCriterion) (epsilon : Float) : Bool := c.missingIsZero && c.includesZero epsilon

end RangeCriterion

end FacetedSearch
