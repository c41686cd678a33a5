import FacetedSearch.Criteria.Intent
import FacetedSearch.Criteria.Range
import FacetedSearch.Criteria.Terms
import FacetedSearch.Request

/-!
# Criteria of a request

Every intent of a request, gathered per field in the order in which the fields first came. Some statuses are
ruled out unless the request filters on the status itself.
-/

namespace FacetedSearch

structure Criteria where
  typeTerms : List String := []
  typeNotTerms : List String := []
  fields : List TermCriterion := []
  ranges : List RangeCriterion := []
deriving DecidableEq

namespace Criteria

def field? (c : Criteria) (field : String) : Option TermCriterion := c.fields.find? (·.field == field)

def range? (c : Criteria) (field : String) : Option RangeCriterion := c.ranges.find? (·.field == field)

def wantedValues (c : Criteria) (field : String) : List String :=
  ((c.field? field).map (·.wanted)).getD []

def changeField (view : FieldView) (field : String) (change : TermCriterion → TermCriterion)
    (c : Criteria) : Criteria :=
  { c with fields := Table.update (·.field) field (.fresh view field) change c.fields }

def changeRange (view : FieldView) (field : String) (change : RangeCriterion → RangeCriterion)
    (c : Criteria) : Criteria :=
  { c with ranges := Table.update (·.field) field (.fresh view field) change c.ranges }

def add (view : FieldView) (c : Criteria) : Intent → Criteria
  | .skip => c
  | .docType value false => { c with typeTerms := TermCriterion.addOnce value c.typeTerms }
  | .docType value true => { c with typeNotTerms := TermCriterion.addOnce value c.typeNotTerms }
  | .term field value negated => c.changeField view field (·.addTerm value negated)
  | .noValue field negated => c.changeField view field fun t => { t with noValue := some !negated }
  | .range field direction literal => c.changeRange view field (·.addBound direction literal)

def requested (view : FieldView) (request : Request) : Criteria :=
  request.foldl (fun c p => c.add view (view.intent p)) {}

/-- The criterion that rules out the excluded statuses. -/
def statusExclusion (view : FieldView) : TermCriterion :=
  { TermCriterion.fresh view view.settings.statusField with
    unwanted := view.settings.excludedStatuses.foldl (fun kept s => TermCriterion.addOnce s kept) []
    isImplicit := true }

/-- Whether the request leaves the status open while statuses are to be excluded. -/
def needsStatusExclusion (view : FieldView) (c : Criteria) : Bool :=
  !view.settings.excludedStatuses.isEmpty && (c.field? view.settings.statusField).isNone &&
    (c.range? view.settings.statusField).isNone

def withStatusExclusion (view : FieldView) (c : Criteria) : Criteria :=
  if c.needsStatusExclusion view then { c with fields := c.fields ++ [statusExclusion view] } else c

def ofRequest (view : FieldView) (request : Request) : Criteria :=
  (requested view request).withStatusExclusion view

end Criteria

/-- The filters of a request, each with a link that removes it; skipped parameters are no filters. -/
def FieldView.appliedFilters (view : FieldView) (request : Request) : List AppliedFilter :=
  request.zipIdx.filterMap fun (p, index) =>
    if view.intent p = .skip then none else some (.of request index p)

end FacetedSearch
