import FacetedSearch.Bound.Bounds

/-!
# Queries

The whole vocabulary of compiled filters: boolean combinations, exact matches, ranges, presence, and conditions
on one instance of a repeated sub-object. Queries are plain trees.
-/

namespace FacetedSearch

inductive Query where
  /-- All of `must`, none of `mustNot`; one of `should` where there is no `must`. -/
  | bool (must mustNot should : List Query)
  | terms (field : String) (values : List String)
  | matching (field value : String)
  | range (field : String) (bounds : Bounds)
  | present (field : String)
  /-- One instance at the path satisfies the whole inner query. -/
  | nested (path : String) (inner : Query)

namespace Query

def allOf (queries : List Query) : Query := .bool queries [] []

def noneOf (queries : List Query) : Query := .bool [] queries []

/-- One of the queries; a single query stands for itself. -/
def anyOf : List Query → Query
  | [query] => query
  | queries => .bool [] [] queries

def missing (field : String) : Query := noneOf [.present field]

/-- The name of the outermost clause. -/
def kind : Query → String
  | bool .. => "bool"
  | terms .. => "terms"
  | matching .. => "match"
  | range .. => "range"
  | present _ => "exists"
  | nested .. => "nested"

/-- The field of a leaf. -/
def field? : Query → Option String
  | terms field _ | matching field _ | range field _ | present field => some field
  | bool .. | nested .. => none

/-- The clauses of `must`, for a boolean query. -/
def must : Query → List Query
  | bool must _ _ => must
  | _ => []

def isPresence : Query → Bool
  | present _ => true
  | _ => false

mutual

/-- The field of every leaf, in order; paths of repeated sub-objects are no fields. -/
def fields : Query → List String
  | bool must mustNot should => fieldsOf must ++ fieldsOf mustNot ++ fieldsOf should
  | terms field _ => [field]
  | matching field _ => [field]
  | range field _ => [field]
  | present field => [field]
  | nested _ inner => inner.fields

def fieldsOf : List Query → List String
  | [] => []
  | query :: rest => query.fields ++ fieldsOf rest

end

mutual

def isSame : Query → Query → Bool
  | bool a b c, bool a' b' c' => areSame a a' && areSame b b' && areSame c c'
  | terms f vs, terms f' vs' => f == f' && vs == vs'
  | matching f v, matching f' v' => f == f' && v == v'
  | range f b, range f' b' => f == f' && b == b'
  | present f, present f' => f == f'
  | nested p q, nested p' q' => p == p' && q.isSame q'
  | _, _ => false

def areSame : List Query → List Query → Bool
  | [], [] => true
  | p :: ps, q :: qs => p.isSame q && areSame ps qs
  | _, _ => false

end

theorem fieldsOf_eq_flatMap (qs : List Query) : fieldsOf qs = qs.flatMap fields := by
  induction qs with
  | nil => rfl
  | cons q qs ih => simp [fieldsOf, ih]

end Query

end FacetedSearch
