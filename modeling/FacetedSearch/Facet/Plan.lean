import FacetedSearch.Criteria.Collection
import FacetedSearch.Facet.Basic
import FacetedSearch.Index.Catalog

/-!
# Planned facets

Which facets a search computes: the declared ones, the ones the request adds, and one for each filtered field. A
field has one facet, the first that comes.
-/

namespace FacetedSearch

structure PlannedFacet where
  facet : Facet
  /-- Indexed path of the repeated sub-object the field lives in. -/
  nestedPath : Option String := none
  /-- The values the request chose; they are counted in any case. -/
  requested : List String := []

namespace PlannedFacet

def aggregationName (p : PlannedFacet) : String := p.facet.aggregationName

end PlannedFacet

namespace FieldView

variable (view : FieldView)

def implicitFacet (field : String) : Facet :=
  { field, title := field, missingLabel := view.settings.noValueLabel }

/-- Declared facets, then added ones, then those of filtered fields; repeated fields are still in. -/
def facetCandidates (declared : List Facet) (request : Request) (criteria : Criteria) : List Facet :=
  declared ++
    ((request.values "additional_facet").filter fun f => !f.isEmpty).map view.implicitFacet ++
    (if view.settings.facetFilteredFields then
      (criteria.fields.filter fun c => !c.isImplicit).map fun c => view.implicitFacet c.field
    else [])

/-- Fits a facet to the index and to the request. -/
def resolveFacet (criteria : Criteria) (facet : Facet) : PlannedFacet :=
  let nestedPath := view.nestedPath? facet.field
  { facet := facet.withKind (if nestedPath.isSome then facet.kind.nested else facet.kind.flat)
    nestedPath
    requested := (criteria.wantedValues facet.field).filter (· != view.settings.noValueLabel) }

def planFacets (declared : List Facet) (request : Request) (criteria : Criteria) : List PlannedFacet :=
  ((view.facetCandidates declared request criteria).foldl Catalog.addFacet []).map
    (view.resolveFacet criteria)

end FieldView

end FacetedSearch
