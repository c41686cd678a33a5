import FacetedSearch.Criteria.Collection
import FacetedSearch.Query.Basic

/-!
# Flat clauses

The clauses of a criterion on a field outside any repeated sub-object.
-/

namespace FacetedSearch

/-- The clauses that one criterion adds to the outer filter. -/
structure FlatClauses where
  must : Option Query := none
  mustNot : Option Query := none

namespace TermCriterion

/-- The clause on the wanted values and on presence, and the clause of a lone wish for absence. -/
def positiveClauses (c : TermCriterion) : FlatClauses :=
  match c.wanted, c.noValue with
  | [], none => {}
  | [], some true => { mustNot := some (.present c.valueField) }
  | [], some false => { must := some (.present c.valueField) }
  | wanted, none => { must := some (.terms c.queryField wanted) }
  | wanted, some true =>
    { must := some (.bool [] [] [.terms c.queryField wanted, .missing c.valueField]) }
  | wanted, some false =>
    { must := some (.bool [] [] [.terms c.queryField wanted, .present c.valueField]) }

/-- Unwanted values join a clause that is negated already. -/
def flatClauses (c : TermCriterion) : FlatClauses :=
  let positive := c.positiveClauses
  match c.unwanted with
  | [] => positive
  | unwanted =>
    let negated := Query.terms c.queryField unwanted
    { positive with
      mustNot := some (match positive.mustNot with
        | some absence => .anyOf [absence, negated]
        | none => negated) }

end TermCriterion

/-- The query of a range; where zero is in range, documents without the field match too. -/
def RangeCriterion.toQuery (c : RangeCriterion) (epsilon : Float) : Query :=
  let range := Query.range c.queryField c.bounds
  if c.includesMissing epsilon then .bool [] [] [range, .missing c.queryField] else range

end FacetedSearch
