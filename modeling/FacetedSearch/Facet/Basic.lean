import FacetedSearch.Json.Reader
import FacetedSearch.Json.Record
import FacetedSearch.Text.Affix

/-!
# Facets

A facet counts the documents of a search by one field. Its aggregation is a shape, which may be evaluated inside
a repeated sub-object.
-/

namespace FacetedSearch

inductive AggregationShape where
  | terms
  | range
  /-- Minimum, maximum, average, sum and count. -/
  | stats
deriving DecidableEq, Repr

structure AggregationKind where
  shape : AggregationShape := .terms
  /-- Evaluated inside a repeated sub-object. -/
  isNested : Bool := false
deriving DecidableEq, Repr

def AggregationShape.name : AggregationShape → String
  | terms => "terms"
  | range => "range"
  | stats => "stats"

namespace AggregationKind

def name (k : AggregationKind) : String :=
  if k.isNested then "nested-" ++ k.shape.name else k.shape.name

def nested (k : AggregationKind) : AggregationKind := { k with isNested := true }

def flat (k : AggregationKind) : AggregationKind := { k with isNested := false }

def ofName? : String → Option AggregationKind
  | "terms" => some ⟨.terms, false⟩
  | "range" => some ⟨.range, false⟩
  | "stats" => some ⟨.stats, false⟩
  | "nested-terms" => some ⟨.terms, true⟩
  | "nested-range" => some ⟨.range, true⟩
  | "nested-stats" => some ⟨.stats, true⟩
  | _ => none

def ofJson? (v : Json) : Option AggregationKind := v.tag?.bind ofName?

theorem ofName?_name (k : AggregationKind) : ofName? k.name = some k := by
  obtain ⟨shape, isNested⟩ := k
  cases shape <;> cases isNested <;> rfl

end AggregationKind

/-- A declared bucket; a missing end is unbounded. -/
structure FacetRange where
  lower : Option Float := none
  upper : Option Float := none
deriving DecidableEq

namespace FacetRange

/-- The bucket that holds exactly zero. -/
def isZeroBucket (r : FacetRange) : Bool :=
  r.lower.any (· == 0.0) && r.upper.any (· == 0.0)

def fieldNames : List String := ["from", "to"]

def ofJson? (v : Json) : Option FacetRange := do
  let r ← v.record? fieldNames
  return ⟨← r.field "from" (Json.nullable? Json.float?) none, ← r.field "to" (Json.nullable? Json.float?) none⟩

def endsJson (lower upper : Option Float) : Json :=
  .obj ((lower.map fun x => ("from", Json.ofFloat x)).toList ++
    (upper.map fun x => ("to", Json.ofFloat x)).toList)

def toJson (r : FacetRange) : Json := endsJson r.lower r.upper

end FacetRange

structure Facet where
  field : String
  title : String := ""
  kind : AggregationKind := {}
  ranges : List FacetRange := []
  /-- Label of the bucket for documents without the field. -/
  missingLabel : String := "No value"
deriving DecidableEq

namespace Facet

def withKind (f : Facet) (kind : AggregationKind) : Facet := { f with kind }

/-- Buckets make a range facet, nested or flat as before. -/
def withRanges (f : Facet) (ranges : List FacetRange) : Facet :=
  { f with ranges, kind := { f.kind with shape := .range } }

def withMissingLabel (f : Facet) (missingLabel : String) : Facet := { f with missingLabel }

/-- The kind and the field with dashes for dots. -/
def aggregationName (f : Facet) : String :=
  f.kind.name ++ ":" ++ Text.exchange '.' '-' f.field

/-- What is read of the text of a facet. -/
def outline : Json.Outline :=
  .record [("field", .whole), ("title", .whole), ("aggregation_type", .whole),
    ("ranges", .list (.ofFields FacetRange.fieldNames)), ("missing_value_label", .whole)]

def ofJson? (v : Json) : Option Facet := do
  let r ← v.record? ["field", "title", "aggregation_type", "ranges", "missing_value_label"]
  let field ← r.required "field" Json.str?
  let title ← r.field "title" Json.str? ""
  let kind ← r.field "aggregation_type" AggregationKind.ofJson? {}
  let ranges ← r.field "ranges" (Json.list? FacetRange.ofJson?) []
  let missingLabel ← r.field "missing_value_label" Json.str? "No value"
  return { field, title, kind, ranges, missingLabel }

/-- The record of a facet; buckets only where there are some. -/
def toJson (f : Facet) : Json :=
  .obj ([("field", .str f.field), ("title", .str f.title), ("aggregation_type", .str f.kind.name)] ++
    (if f.ranges.isEmpty then [] else [("ranges", .arr (f.ranges.map FacetRange.toJson))]) ++
    [("missing_value_label", .str f.missingLabel)])

end Facet

end FacetedSearch
