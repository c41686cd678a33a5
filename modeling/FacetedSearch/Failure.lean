import FacetedSearch.Text.Printable

/-!
# Failures

Why a search cannot be compiled or an input cannot be read. Each cause has a code for responses and metrics, a
message for logs and a message that is safe to show to the client.
-/

namespace FacetedSearch

inductive Failure where
  /-- A query tree does not have the form that a later stage relies on. -/
  | construction (detail : String)
  /-- Two facets would share one aggregation name. -/
  | nameCollision (name : String)
  /-- A query body uses a clause outside the vocabulary. -/
  | unsupportedShape (detail : String)
  /-- A permission clause names other principals than the caller's. -/
  | permissionMismatch (expected found : List String)
  | permissionMissing
  | unknownField (field : String)
  | invalidRequest (detail : String)
  | serialization (detail : String)
  | inputOutput (detail : String)
deriving DecidableEq, Repr

namespace Failure

/-- Stable tag for responses and metric labels; both permission failures share one. -/
def code : Failure → String
  | construction _ => "query_construction_error"
  | nameCollision _ => "aggregation_name_collision"
  | unsupportedShape _ => "unsupported_query_shape"
  | permissionMismatch .. => "permission_integrity_error"
  | permissionMissing => "permission_integrity_error"
  | unknownField _ => "schema_lookup_miss"
  | invalidRequest _ => "invalid_request"
  | serialization _ => "serialization_error"
  | inputOutput _ => "io_error"

def message : Failure → String
  | construction detail => "Query construction error: " ++ detail
  | nameCollision name => "Aggregation name collision: " ++ name
  | unsupportedShape detail => "Unsupported query shape: " ++ detail
  | permissionMismatch expected found =>
    "Permission filter mismatch: expected " ++ Text.quotedList expected ++ ", found " ++ Text.quotedList found
  | permissionMissing => "Permission filter missing from assembled query"
  | unknownField field => "Field not found in schema: " ++ field
  | invalidRequest detail => "Invalid request: " ++ detail
  | serialization detail => "Serialization error: " ++ detail
  | inputOutput detail => "IO error: " ++ detail

/-- Only malformed input is echoed to the client. -/
def clientMessage : Failure → String
  | invalidRequest detail => "Invalid search request: " ++ detail
  | _ => "Search failed"

/-- Whether a permission clause was tampered with or dropped. -/
def isSecurityEvent : Failure → Bool
  | permissionMismatch .. => true
  | permissionMissing => true
  | _ => false

/-- Whether the search is given up; an unknown field only degrades to plain terms. -/
def isFatal : Failure → Bool
  | unknownField _ => false
  | _ => true

end Failure

end FacetedSearch
