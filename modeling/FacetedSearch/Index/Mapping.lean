import FacetedSearch.Facet.Basic
import FacetedSearch.Index.FieldType
import FacetedSearch.Json.Reader
import FacetedSearch.Text.Order

/-!
# Mappings

The fields of one document type, their sub-fields, and the facets shown for the type. A dotted path names a field
through its ancestors; the deepest repeated one among them decides in which scope the field is filtered.
-/

namespace FacetedSearch

structure FieldMapping where
  fieldType : FieldType := .text
  /-- A missing value counts as zero in range filters. -/
  missingIsZero : Bool := false
  properties : Option (List (String × FieldMapping)) := none

abbrev Properties := List (String × FieldMapping)

structure IndexMapping where
  properties : Properties := []
  /-- Facets in the order in which they are shown. -/
  facets : List Facet := []

structure ResolvedField where
  mapping : FieldMapping
  /-- The deepest repeated ancestor, the field itself included. -/
  nestedPath : Option String

namespace Properties

/-- The path of the segments walked so far. -/
def dotted (walked : List String) : String := String.intercalate "." walked

/-- Follows the segments of a path; `walked` and `nestedPath` tell what lies behind. -/
def resolveFrom (properties : Properties) (walked : List String) (nestedPath : Option String) :
    List String → Option ResolvedField
  | [] => none
  | segment :: rest =>
    match Table.find? segment properties with
    | none => none
    | some field =>
      let walked := walked ++ [segment]
      let nestedPath := if field.fieldType.isNested then some (dotted walked) else nestedPath
      match rest with
      | [] => some ⟨field, nestedPath⟩
      | next :: rest => resolveFrom (field.properties.getD []) walked nestedPath (next :: rest)

end Properties

/-! ## Names -/

mutual

/-- The full names of the fields below `path`. -/
def FieldMapping.namesBelow (path : String) (field : FieldMapping) : List String :=
  match field with
  | ⟨_, _, none⟩ => []
  | ⟨_, _, some properties⟩ => Properties.namesBelow path properties

def Properties.namesBelow (path : String) (properties : List (String × FieldMapping)) : List String :=
  match properties with
  | [] => []
  | (name, field) :: rest =>
    let full := if path.isEmpty then name else path ++ "." ++ name
    full :: (FieldMapping.namesBelow full field ++ Properties.namesBelow path rest)

end

namespace IndexMapping

def withField (m : IndexMapping) (name : String) (field : FieldMapping) : IndexMapping :=
  { m with properties := Table.put name field m.properties }

def withFacet (m : IndexMapping) (facet : Facet) : IndexMapping := { m with facets := m.facets ++ [facet] }

def resolve? (m : IndexMapping) (path : String) : Option ResolvedField :=
  Properties.resolveFrom m.properties [] none (Text.segments path)

def hasField (m : IndexMapping) (path : String) : Bool := (m.resolve? path).isSome

/-- The full names of all fields at all depths, in order. -/
def fieldNames (m : IndexMapping) : List String := Text.sorted (Properties.namesBelow "" m.properties)

end IndexMapping

/-! ## JSON form -/

namespace FieldMapping

/-- What is read of the text of a field that has at most `depth` levels of sub-fields. -/
def outline : Nat → Json.Outline
  | 0 => .whole
  | depth + 1 =>
    .record [("type", .whole), ("no_value_means_zero", .whole), ("properties", .table (outline depth))]

/-- The record in `v`, given what its sub-fields were read as. -/
def assemble (v : Json) (properties : Option (Option (Option Properties))) : Option FieldMapping := do
  let r ← v.record? ["type", "no_value_means_zero", "properties"]
  let fieldType ← r.field "type" FieldType.ofJson? .text
  let missingIsZero ← r.field "no_value_means_zero" Json.bool? false
  let properties ← properties.getD (some none)
  return { fieldType, missingIsZero, properties }

mutual

def ofJson? : Json → Option FieldMapping
  | .obj members => assemble (.obj members) (Table.find? "properties" (tablesOfMembers members))
  | .arr items => assemble (.arr items) (tablesOfItems items)[2]?
  | _ => none

/-- Sub-fields by name, or null for none. -/
def table? : Json → Option (Option Properties)
  | .null => some none
  | .obj members => (mappings? members).map fun entries => some (Table.ofList entries)
  | _ => none

def tablesOfMembers : List (String × Json) → List (String × Option (Option Properties))
  | [] => []
  | (key, value) :: rest => (key, table? value) :: tablesOfMembers rest

def tablesOfItems : List Json → List (Option (Option Properties))
  | [] => []
  | item :: rest => table? item :: tablesOfItems rest

def mappings? : List (String × Json) → Option Properties
  | [] => some []
  | (key, value) :: rest =>
    match ofJson? value, mappings? rest with
    | some field, some fields => some ((key, field) :: fields)
    | _, _ => none

end

mutual

def toJson (field : FieldMapping) : Json :=
  match field with
  | ⟨fieldType, missingIsZero, properties⟩ =>
    .obj (("type", .str fieldType.name) :: ("no_value_means_zero", .bool missingIsZero) ::
      tableJson properties)

def tableJson (properties : Option (List (String × FieldMapping))) : List (String × Json) :=
  match properties with
  | none => []
  | some properties => [("properties", .obj (propertiesJson properties))]

def propertiesJson (properties : List (String × FieldMapping)) : List (String × Json) :=
  match properties with
  | [] => []
  | (name, field) :: rest => (name, toJson field) :: propertiesJson rest

end

end FieldMapping

namespace IndexMapping

/-- What is read of the text of a mapping. No text that is read has more levels than containers. -/
def outline : Json.Outline :=
  .record [("properties", .table (FieldMapping.outline Json.maxDepth)), ("facets", .list Facet.outline)]

/-- Properties by name; null is not taken for none. -/
def properties? : Json → Option Properties
  | .obj members => (FieldMapping.mappings? members).map Table.ofList
  | _ => none

def ofJson? (v : Json) : Option IndexMapping := do
  let r ← v.record? ["properties", "facets"]
  let properties ← r.field "properties" properties? []
  let facets ← r.field "facets" (Json.list? Facet.ofJson?) []
  return { properties, facets }

def toJson (m : IndexMapping) : Json :=
  .obj [("properties", .obj (FieldMapping.propertiesJson m.properties)),
    ("facets", .arr (m.facets.map Facet.toJson))]

end IndexMapping

end FacetedSearch
