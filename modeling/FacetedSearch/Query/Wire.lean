import FacetedSearch.Failure
import FacetedSearch.Json.Printer
import FacetedSearch.Json.Reader
import FacetedSearch.Query.Basic

/-!
# Wire form of queries

The JSON query language of the search engine. In writing, empty lists of clauses are left out. Only clauses of the
vocabulary are read back, so that a saved body cannot bring in a clause that the permission check does not understand.
-/

namespace FacetedSearch.Query

/-! ## Writing -/

/-- A named list of clauses, unless it is empty. -/
def clauseEntry (key : String) (clauses : List Json) : List (String × Json) :=
  if clauses.isEmpty then [] else [(key, .arr clauses)]

mutual

def toJson : Query → Json
  | bool must mustNot should =>
    Json.single "bool" (.obj (clauseEntry "must" (toJsons must) ++
      clauseEntry "must_not" (toJsons mustNot) ++ clauseEntry "should" (toJsons should)))
  | terms field values => Json.single "terms" (Json.single field (Json.ofStrings values))
  | matching field value => Json.single "match" (Json.single field (.str value))
  | range field bounds => Json.single "range" (Json.single field bounds.toJson)
  | present field => Json.single "exists" (Json.single "field" (.str field))
  | nested path inner => Json.single "nested" (.obj [("path", .str path), ("query", inner.toJson)])

def toJsons : List Query → List Json
  | [] => []
  | query :: rest => query.toJson :: toJsons rest

end

/-- A query document holds its filter where it does not affect scores. -/
def document (filter : Query) : Json :=
  Json.single "query" (Json.single "bool" (Json.single "filter" filter.toJson))

/-! ## Reading leaves -/

open Failure (unsupportedShape)

def scalarText? : Json → Option String
  | .str s => some s
  | .num n => some (Json.numberText n)
  | .bool b => some (if b then "true" else "false")
  | _ => none

def scalar (v : Json) : Except Failure String :=
  match scalarText? v with
  | some s => .ok s
  | none => .error (unsupportedShape ("Expected a scalar value, got: " ++ v.compact))

/-- The one field of a leaf and what is said about it. -/
def singleField (kind : String) : Json → Except Failure (String × Json)
  | .obj [(field, v)] => .ok (field, v)
  | .obj _ => .error (unsupportedShape (kind ++ " query must specify exactly one field"))
  | _ => .error (unsupportedShape (kind ++ " query must be an object"))

def termsOfJson (v : Json) : Except Failure Query := do
  let (field, v) ← singleField "terms" v
  match v with
  | .arr items => return .terms field (← items.mapM scalar)
  | _ => throw (unsupportedShape "terms query value must be an array")

/-- The value stands alone or as the member `query` of an object. -/
def matchingOfJson (v : Json) : Except Failure Query := do
  let (field, v) ← singleField "match" v
  match v with
  | .obj members =>
    match Table.find? "query" members with
    | some v => return .matching field (← scalar v)
    | none => throw (unsupportedShape "match query spec must have 'query' field")
  | v => return .matching field (← scalar v)

/-- A bound that is neither number nor text is taken as its compact text. -/
def boundOfJson : Json → Bound.Value
  | .num n => .ofNumber n
  | .str s => .text s
  | v => .text v.compact

def boundsOfMembers (members : List (String × Json)) : Bounds :=
  let bound (d : Bound.Direction) := (Table.find? d.name members).map boundOfJson
  { gte := bound .gte, gt := bound .gt, lte := bound .lte, lt := bound .lt }

def rangeOfJson (v : Json) : Except Failure Query := do
  let (field, v) ← singleField "range" v
  match v with
  | .obj members => return .range field (boundsOfMembers members)
  | _ => throw (unsupportedShape "range query spec must be an object")

def presentOfJson (v : Json) : Except Failure Query :=
  match (v.get? "field").bind Json.str? with
  | some field => .ok (.present field)
  | none => .error (unsupportedShape "exists query must have a string 'field'")

/-! ## Reading trees -/

structure Clauses where
  must : List Query := []
  mustNot : List Query := []
  should : List Query := []

def Clauses.toQuery (c : Clauses) : Query := .bool c.must c.mustNot c.should

def keyList (members : List (String × Json)) : String := Text.quotedList (members.map Prod.fst)

def unknownKind (key : String) : Failure :=
  unsupportedShape
    ("Unknown query type. Expected one of: bool, terms, match, range, exists, nested. Got keys: " ++
      Text.quotedList [key])

mutual

def ofJson : Json → Except Failure Query
  | .obj members => ofMembers members
  | _ => .error (unsupportedShape "Query must be a JSON object")

/-- A query object has one key: the kind of the query, or `query` around another one. -/
def ofMembers : List (String × Json) → Except Failure Query
  | [(key, body)] =>
    match key with
    | "query" => ofJson body
    | "bool" =>
      match body with
      | .obj members => Clauses.toQuery <$> clausesOf members
      | _ => .error (unsupportedShape "bool query must be an object")
    | "terms" => termsOfJson body
    | "match" => matchingOfJson body
    | "range" => rangeOfJson body
    | "exists" => presentOfJson body
    | "nested" =>
      match (body.get? "path").bind Json.str? with
      | none => .error (unsupportedShape "nested query must have a string 'path'")
      | some path =>
        match body with
        | .obj members =>
          match innerOf members with
          | some inner => .nested path <$> inner
          | none => .error (unsupportedShape "nested query must have a 'query'")
        | _ => .error (unsupportedShape "nested query must have a 'query'")
    | key => .error (unknownKind key)
  | members =>
    .error (unsupportedShape ("Query object must have exactly one key, got: " ++ keyList members))

def clausesOf : List (String × Json) → Except Failure Clauses
  | [] => .ok {}
  | (key, value) :: rest =>
    match key with
    | "must" => do
      let must ← clauseList value
      return { ← clausesOf rest with must }
    | "must_not" => do
      let mustNot ← clauseList value
      return { ← clausesOf rest with mustNot }
    | "should" => do
      let should ← clauseList value
      return { ← clausesOf rest with should }
    | key => .error (unsupportedShape ("Unsupported bool clause: " ++ key))

/-- An array of queries, or one query without the array. -/
def clauseList : Json → Except Failure (List Query)
  | .arr items => ofItems items
  | .obj members => do return [← ofMembers members]
  | _ => .error (unsupportedShape "Clause must be an array or object")

def ofItems : List Json → Except Failure (List Query)
  | [] => .ok []
  | item :: rest => do
    let query ← ofJson item
    return query :: (← ofItems rest)

def innerOf : List (String × Json) → Option (Except Failure Query)
  | [] => none
  | (key, value) :: rest => if key = "query" then some (ofJson value) else innerOf rest

end

def ofText (text : String) : Except Failure Query :=
  match Json.read? text with
  | some v => ofJson v
  | none => .error (.invalidRequest "Invalid JSON")

def ofDocument (v : Json) : Except Failure Query :=
  match ((v.get? "query").bind (·.get? "bool")).bind (·.get? "filter") with
  | some filter => ofJson filter
  | none => .error (unsupportedShape
      "Query document must have the form \x7b\"query\": \x7b\"bool\": \x7b\"filter\": ...\x7d\x7d\x7d")

end FacetedSearch.Query
