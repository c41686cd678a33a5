import FacetedSearch.Facet.Aggregation
import FacetedSearch.Filter.Assembly

/-!
# Compiled searches

From a request to the body that is sent to the search engine: criteria, checked filter, planned facets and their
aggregations.
-/

namespace FacetedSearch

structure CompiledSearch where
  filter : Query
  aggregations : Aggregations := {}
  applied : List AppliedFilter := []
  facets : List PlannedFacet := []

namespace CompiledSearch

def body (s : CompiledSearch) : Json :=
  match Query.document s.filter, s.aggregations.toJson with
  | .obj query, .obj aggregations => .obj (query ++ aggregations)
  | query, _ => query

def toJson (s : CompiledSearch) : Json :=
  .obj [("body", s.body), ("filters", .arr (s.applied.map AppliedFilter.toJson))]

end CompiledSearch

structure Compiler where
  settings : Settings
  lookup : FieldLookup

namespace Compiler

def guard (c : Compiler) : PermissionGuard := ⟨c.settings.permissionField⟩

/-- The types to search: the given ones, else those the request names, else the base type. -/
def searchTypes (c : Compiler) (request : Request) (types : List String) : List String :=
  if types.isEmpty then
    match (request.values "type").filter fun t => !t.isEmpty with
    | [] => [c.settings.baseType]
    | requested => requested
  else types

def view (c : Compiler) (types : List String) : FieldView := ⟨c.settings, c.lookup, types⟩

/-- The criteria of a request and their filter, which has passed the permission check. -/
def compileFilter (c : Compiler) (request : Request) (types : List String) (principals : Principals) :
    Except Failure (Criteria × Query) := do
  let criteria := Criteria.ofRequest (c.view types) request
  let filter := criteria.filter c.settings types principals
  c.guard.verify filter principals
  return (criteria, filter)

def compile (c : Compiler) (request : Request) (types : List String) (principals : Principals)
    (declared : List Facet) : Except Failure CompiledSearch := do
  let types := c.searchTypes request types
  let (criteria, filter) ← c.compileFilter request types principals
  let facets := (c.view types).planFacets declared request criteria
  let aggregations ← Aggregations.build c.settings facets filter
  return { filter, aggregations, applied := (c.view types).appliedFilters request, facets }

def compileQueryString (c : Compiler) (query : String) (types : List String) (principals : Principals)
    (declared : List Facet) : Except Failure CompiledSearch := do
  c.compile (← Request.ofQueryString query) types principals declared

end Compiler

end FacetedSearch
