import FacetedSearch.Failure
import FacetedSearch.Json.Reader
import FacetedSearch.Json.Record
import FacetedSearch.Text.Affix

/-!
# Settings

How the target index names its fields, and the constants of filters and facets. Every setting has a default, and
a JSON record may override any of them.
-/

namespace FacetedSearch

structure Settings where
  /-- Precedes every document field in the index. -/
  fieldPrefix : String := "embedded."
  /-- Names the keyword sub-field of a field, for exact matches. -/
  rawSuffix : String := ".raw"
  typeField : String := "@type"
  /-- The type of every document; asking for it filters nothing. -/
  baseType : String := "Item"
  permissionField : String := "principals_allowed.view"
  statusField : String := "status"
  /-- The value that asks for documents without the field. -/
  noValueLabel : String := "No value"
  maxFacetBuckets : UInt64 := 100
  /-- Turns an inclusive numeric bound into an exclusive one. -/
  zeroEpsilon : Float := 1.1920928955078125e-7
  /-- Parameters that never filter. -/
  reservedParameters : List String :=
    ["q", "searchTerm", "limit", "from", "sort", "frame", "format", "field", "mode", "redirected_from",
      "datastore", "referrer", "currentAction", "additional_facet", "debug"]
  /-- Statuses left out unless the request filters on the status. -/
  excludedStatuses : List String := ["deleted", "replaced"]
  /-- Filtered fields without a declared facet get one. -/
  facetFilteredFields : Bool := true
deriving DecidableEq

namespace Settings

def isReserved (s : Settings) (parameter : String) : Bool := s.reservedParameters.contains parameter

/-- The indexed field, for ranges, statistics and presence. -/
def valueField (s : Settings) (field : String) : String := s.fieldPrefix ++ field

/-- The keyword sub-field, for exact matches. -/
def termField (s : Settings) (field : String) : String := s.fieldPrefix ++ field ++ s.rawSuffix

def typeQueryField (s : Settings) : String := s.termField s.typeField

/-- The document field of an indexed field: prefix and suffix are taken off where they occur. -/
def baseField (s : Settings) (queryField : String) : String :=
  let field := (Text.after? s.fieldPrefix queryField).getD queryField
  (Text.before? s.rawSuffix field).getD field

/-! ## JSON form -/

def fieldNames : List String :=
  ["field_prefix", "raw_suffix", "type_field", "base_type", "permission_field", "status_field",
    "no_value_label", "max_facet_buckets", "zero_epsilon", "reserved_params", "excluded_statuses",
    "facet_filtered_fields"]

/-- A text is read for these fields alone. -/
def outline : Json.Outline := .ofFields fieldNames

def ofJson? (v : Json) : Option Settings := do
  let defaults : Settings := {}
  let r ← v.record? fieldNames
  let fieldPrefix ← r.field "field_prefix" Json.str? defaults.fieldPrefix
  let rawSuffix ← r.field "raw_suffix" Json.str? defaults.rawSuffix
  let typeField ← r.field "type_field" Json.str? defaults.typeField
  let baseType ← r.field "base_type" Json.str? defaults.baseType
  let permissionField ← r.field "permission_field" Json.str? defaults.permissionField
  let statusField ← r.field "status_field" Json.str? defaults.statusField
  let noValueLabel ← r.field "no_value_label" Json.str? defaults.noValueLabel
  let maxFacetBuckets ←
    r.field "max_facet_buckets" (fun v => v.nat?.map UInt64.ofNat) defaults.maxFacetBuckets
  let zeroEpsilon ← r.field "zero_epsilon" Json.float? defaults.zeroEpsilon
  let reservedParameters ← r.field "reserved_params" Json.strings? defaults.reservedParameters
  let excludedStatuses ← r.field "excluded_statuses" Json.strings? defaults.excludedStatuses
  let facetFilteredFields ← r.field "facet_filtered_fields" Json.bool? defaults.facetFilteredFields
  return { fieldPrefix, rawSuffix, typeField, baseType, permissionField, statusField, noValueLabel,
           maxFacetBuckets, zeroEpsilon, reservedParameters, excludedStatuses, facetFilteredFields }

def toJson (s : Settings) : Json :=
  .obj
    [("field_prefix", .str s.fieldPrefix), ("raw_suffix", .str s.rawSuffix), ("type_field", .str s.typeField),
      ("base_type", .str s.baseType), ("permission_field", .str s.permissionField),
      ("status_field", .str s.statusField), ("no_value_label", .str s.noValueLabel),
      ("max_facet_buckets", Json.ofNat s.maxFacetBuckets.toNat), ("zero_epsilon", Json.ofFloat s.zeroEpsilon),
      ("reserved_params", Json.ofStrings s.reservedParameters),
      ("excluded_statuses", Json.ofStrings s.excludedStatuses),
      ("facet_filtered_fields", .bool s.facetFilteredFields)]

/-- Settings from a value; names that are not given keep their defaults. -/
def ofValue (v : Json) : Except Failure Settings :=
  match ofJson? v with
  | some s => .ok s
  | none => .error (.invalidRequest "Invalid config")

def ofText (text : String) : Except Failure Settings := ofValue ((Json.parse? outline text).getD .null)

end Settings

end FacetedSearch
