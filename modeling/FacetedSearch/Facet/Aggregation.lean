import FacetedSearch.Facet.LeaveOneOut
import FacetedSearch.Facet.Plan
import FacetedSearch.Query.Wire

/-!
# Aggregations

The aggregation request of a search. All facets live in one global bucket that ignores the search itself, so each
facet is restricted by its own filter only.
-/

namespace FacetedSearch

def allItems : String := "all_items"

def primaryAggregation : String := "primary_agg"

def requestedAggregation : String := "requested_agg"

/-- One entry per facet, under its aggregation name. -/
structure Aggregations where
  entries : List (String × Json) := []

namespace Aggregations

def names (a : Aggregations) : List String := Table.names a.entries

def get? (a : Aggregations) (name : String) : Option Json := Table.find? name a.entries

def toJson (a : Aggregations) : Json :=
  Json.single "aggs" (Json.single allItems (.obj [("global", .obj []), ("aggs", .obj a.entries)]))

end Aggregations

namespace PlannedFacet

variable (settings : Settings) (p : PlannedFacet)

/-- A bucket of exactly zero gets a small width, since its upper end is exclusive. -/
def bucketJson (r : FacetRange) : Json :=
  FacetRange.endsJson r.lower (if r.isZeroBucket then some settings.zeroEpsilon else r.upper)

def rangeJson : Json :=
  Json.single "range" (.obj [("field", .str (settings.valueField p.facet.field)),
    ("ranges", .arr (p.facet.ranges.map (bucketJson settings)))])

def statsJson : Json :=
  Json.single "stats" (Json.single "field" (.str (settings.valueField p.facet.field)))

/-- Counts by value, at most `size` of them. -/
def termsJson (size : Nat) (only : List (String × Json)) : Json :=
  Json.single "terms" (.obj ([("field", .str (settings.termField p.facet.field)), ("size", Json.ofNat size),
    ("missing", .str p.facet.missingLabel)] ++ only))

/-- The aggregations of a facet in flat scope. Chosen values are counted apart from the others. -/
def flatJson : Json :=
  match p.facet.kind.shape with
  | .range => Json.single primaryAggregation (p.rangeJson settings)
  | .stats => Json.single primaryAggregation (p.statsJson settings)
  | .terms =>
    let primary := p.termsJson settings settings.maxFacetBuckets.toNat []
    let requested := p.termsJson settings p.requested.length [("include", Json.ofStrings p.requested)]
    .obj ((primaryAggregation, primary) ::
      (if p.requested.isEmpty then [] else [(requestedAggregation, requested)]))

/-- The aggregations of a facet, inside its repeated sub-object where the kind is nested. -/
def toJson : Except Failure Json :=
  if p.facet.kind.isNested then
    match p.nestedPath with
    | some path =>
      .ok (Json.single primaryAggregation (.obj [("nested", Json.single "path" (.str path)),
        ("aggs", p.flatJson settings)]))
    | none =>
      .error (.construction (p.facet.kind.name ++ " facet on " ++ p.facet.field ++ " has no nested path"))
  else .ok (p.flatJson settings)

end PlannedFacet

namespace Aggregations

/-- Adds a facet under the filter of the search; its name must be new. -/
def add (settings : Settings) (filter : Query) (a : Aggregations) (p : PlannedFacet) :
    Except Failure Aggregations := do
  let name := p.aggregationName
  if name = allItems ∨ name ∈ a.names then throw (.nameCollision name)
  let own ← LeaveOneOut.filterFor settings filter p.facet.field
  let aggs ← p.toJson settings
  return ⟨a.entries ++ [(name, .obj [("aggs", aggs), ("filter", own.toJson)])]⟩

/-- The aggregations of the planned facets under an assembled filter. -/
def build (settings : Settings) (planned : List PlannedFacet) (filter : Query) :
    Except Failure Aggregations :=
  planned.foldlM (add settings filter) {}

end Aggregations

end FacetedSearch
