import FacetedSearch.Filter.Flat
import FacetedSearch.Filter.Grouping
import FacetedSearch.Filter.Permission

/-!
# Assembled filters

The boolean filter of a search: types, permissions, flat clauses, ranges, and one nested query per repeated
sub-object.
-/

namespace FacetedSearch

namespace RangeCriterion

def nestedCondition? (c : RangeCriterion) (epsilon : Float) : Option NestedCondition :=
  c.nestedPath.map fun path => ⟨.must, path, c.queryField, c.toQuery epsilon⟩

def flatQuery? (c : RangeCriterion) (epsilon : Float) : Option Query :=
  if c.nestedPath.isSome then none else some (c.toQuery epsilon)

end RangeCriterion

namespace Criteria

def flatClauses (c : Criteria) : List FlatClauses :=
  (c.fields.filter fun t => !t.isBelowPath).map TermCriterion.flatClauses

/-- The conditions below repeated sub-objects: terms first, then ranges. -/
def nestedConditions (c : Criteria) (epsilon : Float) : List NestedCondition :=
  (c.fields.filter TermCriterion.isBelowPath).flatMap TermCriterion.nestedConditions ++
    c.ranges.filterMap (·.nestedCondition? epsilon)

/-- The types to restrict the results to: those asked for, else the given ones. -/
def typesOr (c : Criteria) (types : List String) : List String :=
  if c.typeTerms.isEmpty then types else c.typeTerms

/-- The filter of the criteria for a caller with the given principals. -/
def filter (c : Criteria) (settings : Settings) (types : List String) (principals : Principals) : Query :=
  let guard : PermissionGuard := ⟨settings.permissionField⟩
  let flat := c.flatClauses
  let grouped := NestedCondition.group (c.nestedConditions settings.zeroEpsilon)
  .bool
    ([.terms settings.typeQueryField (c.typesOr types), guard.clause principals] ++
      flat.filterMap FlatClauses.must ++ c.ranges.filterMap (·.flatQuery? settings.zeroEpsilon) ++
      grouped.must)
    ((if c.typeNotTerms.isEmpty then [] else [.terms settings.typeQueryField c.typeNotTerms]) ++
      flat.filterMap FlatClauses.mustNot ++ grouped.mustNot)
    []

end Criteria

end FacetedSearch
