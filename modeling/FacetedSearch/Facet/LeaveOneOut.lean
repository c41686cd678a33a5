import FacetedSearch.Failure
import FacetedSearch.Query.Basic
import FacetedSearch.Settings

/-!
# Leaving one field out

The counts of a facet are taken under every filter but the ones on its own field, so that a chosen value does not
hide the others. Clauses on permissions and types always stay.
-/

namespace FacetedSearch.LeaveOneOut

variable (settings : Settings)

/-- Clauses that are never left out. -/
def isProtected : Query → Bool
  | .terms field _ => field == settings.permissionField || field == settings.typeQueryField
  | _ => false

def isOnlyAbout (field : String) (query : Query) : Bool :=
  !query.fields.isEmpty && query.fields.all fun f => settings.baseField f == field

def without (field : String) (clauses : List Query) : List Query :=
  clauses.filter fun clause => !isOnlyAbout settings field clause

/-- What is left of an outer clause. A nested query loses inner clauses one by one, and goes with the last. -/
def strip (field : String) (clause : Query) : Except Failure (Option Query) :=
  if isProtected settings clause then .ok (some clause)
  else
    match clause with
    | .nested path (.bool must mustNot should) =>
      match without settings field must, without settings field mustNot, without settings field should with
      | [], [], [] => .ok none
      | must, mustNot, should => .ok (some (.nested path (.bool must mustNot should)))
    | .nested path inner =>
      .error (.construction
        ("malformed nested query on path " ++ path ++ ": inner query is " ++ inner.kind))
    | clause => .ok (if isOnlyAbout settings field clause then none else some clause)

def stripAll (field : String) (clauses : List Query) : Except Failure (List Query) :=
  (clauses.mapM (strip settings field)).map (·.filterMap id)

/-- The filter without the clauses on `field`. -/
def filterFor (filter : Query) (field : String) : Except Failure Query :=
  match filter with
  | .bool must mustNot should => do
    return .bool (← stripAll settings field must) (← stripAll settings field mustNot) should
  | filter =>
    .error (.construction ("assembled filter is a " ++ filter.kind ++ " query, expected bool"))

end FacetedSearch.LeaveOneOut
