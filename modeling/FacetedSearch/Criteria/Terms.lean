import FacetedSearch.Index.Lookup

/-!
# Term criteria

The values asked for and ruled out on one field, and what is asked about documents without the field.
-/

namespace FacetedSearch

structure TermCriterion where
  /-- As named in the request. -/
  field : String
  /-- The keyword sub-field, for values. -/
  queryField : String
  /-- The indexed field, for presence. -/
  valueField : String
  wanted : List String := []
  unwanted : List String := []
  /-- `true`: documents without the field match too; `false`: the field must be present. -/
  noValue : Option Bool := none
  /-- Indexed path of the enclosing repeated sub-object. -/
  nestedPath : Option String := none
  /-- Not part of the request. -/
  isImplicit : Bool := false
deriving DecidableEq, Repr

namespace TermCriterion

def fresh (view : FieldView) (field : String) : TermCriterion :=
  { field, queryField := view.settings.termField field, valueField := view.settings.valueField field
    nestedPath := view.nestedPath? field }

/-- Adds a value at the end unless it is there. -/
def addOnce (value : String) (values : List String) : List String :=
  if value ∈ values then values else values ++ [value]

def addTerm (c : TermCriterion) (value : String) (negated : Bool) : TermCriterion :=
  if negated then { c with unwanted := addOnce value c.unwanted }
  else { c with wanted := addOnce value c.wanted }

/-- The field is the repeated sub-object itself. -/
def isPathIdentity (c : TermCriterion) : Bool := c.nestedPath == some c.valueField

/-- The field lies below a repeated sub-object. -/
def isBelowPath (c : TermCriterion) : Bool := c.nestedPath.isSome && !c.isPathIdentity

def isEmpty (c : TermCriterion) : Bool := c.wanted.isEmpty && c.unwanted.isEmpty && c.noValue.isNone

end TermCriterion

end FacetedSearch
