import FacetedSearch.Criteria.Terms
import FacetedSearch.Query.Basic

/-!
# Conditions on repeated sub-objects

Conditions below one path must share one nested query, or each of them would be free to match another instance.
Here they are gathered into one wrapper per path.
-/

namespace FacetedSearch

inductive ConditionRole where
  /-- Holds on the shared instance. -/
  | must
  /-- Fails on the shared instance; a presence is ruled out on every instance. -/
  | mustNot
  /-- Holds on the shared instance unless the instance lacks the field. -/
  | should
deriving DecidableEq, Repr

/-- A condition on a field below a repeated sub-object. -/
structure NestedCondition where
  role : ConditionRole
  path : String
  field : String
  query : Query

structure Wrapper where
  path : String
  must : List Query := []
  mustNot : List Query := []

def Wrapper.toQuery (w : Wrapper) : Query := .nested w.path (.bool w.must w.mustNot [])

/-- The outer clauses that conditions on repeated sub-objects come to. -/
structure NestedClauses where
  wrappers : List Wrapper := []
  /-- Presences ruled out on every instance. -/
  absences : List Query := []

namespace NestedClauses

def must (c : NestedClauses) : List Query := c.wrappers.map Wrapper.toQuery

def mustNot (c : NestedClauses) : List Query := c.absences

def changeWrapper (path : String) (change : Wrapper → Wrapper) (c : NestedClauses) : NestedClauses :=
  { c with wrappers := Table.update Wrapper.path path { path } change c.wrappers }

/-- Folds one condition in; the first one on a path opens its wrapper. -/
def add (c : NestedClauses) (condition : NestedCondition) : NestedClauses :=
  match condition.role with
  | .must => c.changeWrapper condition.path fun w => { w with must := w.must ++ [condition.query] }
  | .mustNot =>
    if condition.query.isPresence then
      { c with absences := c.absences ++ [.nested condition.path (.allOf [condition.query])] }
    else c.changeWrapper condition.path fun w => { w with mustNot := w.mustNot ++ [condition.query] }
  | .should =>
    let either := Query.bool [] [] [condition.query, .missing condition.field]
    c.changeWrapper condition.path fun w => { w with must := w.must ++ [either] }

end NestedClauses

namespace NestedCondition

/-- First what must hold, then what must not, then the rest; each part in its given order. -/
def byRole (conditions : List NestedCondition) : List NestedCondition :=
  conditions.filter (·.role = .must) ++ conditions.filter (·.role = .mustNot) ++
    conditions.filter (·.role = .should)

def group (conditions : List NestedCondition) : NestedClauses := (byRole conditions).foldl NestedClauses.add {}

end NestedCondition

namespace TermCriterion

/-- One match per value; a list of terms does not combine inside a nested query. -/
def anyMatch? (field : String) : List String → Option Query
  | [] => none
  | values => some (.anyOf (values.map (Query.matching field)))

/-- The conditions of a criterion below a repeated sub-object. -/
def nestedConditions (c : TermCriterion) : List NestedCondition :=
  match c.nestedPath with
  | none => []
  | some path =>
    let condition (role : ConditionRole) (query : Query) : NestedCondition := ⟨role, path, c.valueField, query⟩
    let presence := Query.present c.valueField
    let positive := match anyMatch? c.queryField c.wanted, c.noValue with
      | some query, none => [condition .must query]
      | some query, some false => [condition .must (.anyOf [query, presence])]
      | none, some false => [condition .must presence]
      | some query, some true => [condition .should query]
      | none, some true => [condition .mustNot presence]
      | none, none => []
    positive ++ ((anyMatch? c.queryField c.unwanted).map (condition .mustNot)).toList

end TermCriterion

end FacetedSearch
