import FacetedSearch.Query.Wire
import FacetedSearch.Search.Compilation

/-!
# Audit of compiled searches

Checks on a finished search: no facet is filtered by its own field, there is one permission clause, and no
repeated sub-object has two nested queries.
-/

namespace FacetedSearch

structure Violation where
  invariant : String
  description : String
  /-- Offending parts of the query, as JSON texts. -/
  fragments : List String := []
  /-- Further facts, ordered by name. -/
  context : List (String × String) := []

namespace Violation

def contextLines (v : Violation) : List String :=
  if v.context.isEmpty then []
  else "  Context:" :: v.context.map fun (key, value) => "    " ++ key ++ ": " ++ value

/-- One fact per line, each line ended. -/
def text (v : Violation) : String :=
  String.join <| (·.map (· ++ "\n")) <|
    ["INVARIANT VIOLATION: " ++ v.invariant, "  Description: " ++ v.description] ++
      v.fragments.map ("  Fragment: " ++ ·) ++ v.contextLines

def toJson (v : Violation) : Json :=
  .obj [("invariant", .str v.invariant), ("description", .str v.description),
    ("fragments", Json.ofStrings v.fragments), ("context", .obj (v.context.map fun (k, s) => (k, .str s)))]

end Violation

namespace Audit

structure Invariant where
  name : String
  description : String
  check : CompiledSearch → Option Violation

/-! ## Facets and their own fields -/

def ownFieldName : String := "LeaveOneOutExcludesOwnField"

/-- The first outer clause of a facet's filter that is not protected and mentions the facet's field. -/
def ownClause? (settings : Settings) (field : String) (clauses : List Query) : Option Query :=
  clauses.find? fun clause =>
    !LeaveOneOut.isProtected settings clause && clause.fields.any fun f => settings.baseField f == field

def checkFacet (settings : Settings) (aggregations : Aggregations) (p : PlannedFacet) : Option Violation :=
  let name := p.aggregationName
  let failed (description : String) : Violation :=
    { invariant := ownFieldName, description, context := [("aggregation", name)] }
  match (aggregations.get? name).bind (·.get? "filter") with
  | none => some (failed "Facet has no aggregation filter")
  | some raw =>
    match Query.ofJson raw with
    | .error failure => some (failed ("Unparsable facet filter: " ++ failure.message))
    | .ok (.bool must mustNot _) =>
      (ownClause? settings p.facet.field (must ++ mustNot)).map fun clause =>
        { failed "Leave-one-out filter still constrains the facet field" with
          context := [("aggregation", name), ("field", p.facet.field)], fragments := [clause.toJson.compact] }
    | .ok filter =>
      some { failed "Facet filter is not a bool query" with fragments := [filter.toJson.compact] }

def excludesOwnField (settings : Settings) : Invariant where
  name := ownFieldName
  description := "A facet aggregation's filter must not contain a fragment on the facet's own field"
  check search := search.facets.findSome? (checkFacet settings search.aggregations)

/-! ## Permissions -/

def hasPermissionClause (settings : Settings) : Invariant where
  name := "PermissionClausePresent"
  description := "The assembled filter must hold one terms clause on the permission field in its outer must"
  check search :=
    let found := ((⟨settings.permissionField⟩ : PermissionGuard).clauses search.filter).length
    if found = 1 then none
    else some
      { invariant := "PermissionClausePresent", description := "Expected exactly one permission clause"
        context := [("field", settings.permissionField), ("found", toString found)]
        fragments := [search.filter.toJson.compact] }

/-! ## Repeated sub-objects -/

/-- The paths of the nested queries among the clauses. -/
def nestedPaths (clauses : List Query) : List String :=
  clauses.filterMap fun
    | .nested path _ => some path
    | _ => none

/-- The first item that occurred before. -/
def firstRepeated? (seen : List String) : List String → Option String
  | [] => none
  | s :: rest => if s ∈ seen then some s else firstRepeated? (s :: seen) rest

def wrapsOnce : Invariant where
  name := "SingleNestedWrapperPerPath"
  description := "Conditions on one nested path must share a single nested query"
  check search :=
    (firstRepeated? [] (nestedPaths search.filter.must)).map fun path =>
      { invariant := "SingleNestedWrapperPerPath", description := "Nested path wrapped more than once"
        context := [("path", path)] }

def invariants (settings : Settings) : List Invariant :=
  [excludesOwnField settings, hasPermissionClause settings, wrapsOnce]

def run (settings : Settings) (search : CompiledSearch) : List Violation :=
  (invariants settings).filterMap fun invariant => invariant.check search

end Audit

end FacetedSearch
