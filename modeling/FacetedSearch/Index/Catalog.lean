import FacetedSearch.Failure
import FacetedSearch.Index.Lookup
import FacetedSearch.Index.Mapping
import FacetedSearch.Json.Reader

/-!
# Catalog

The mappings of every document type, in the order of their names. A search over types of which none is known
consults all of them.
-/

namespace FacetedSearch

structure Catalog where
  mappings : List (String × IndexMapping) := []

namespace Catalog

/-- Puts an entry at its place in a table ordered by name; an entry of that name is replaced. -/
def insertOrdered {α : Type _} (name : String) (value : α) : List (String × α) → List (String × α)
  | [] => [(name, value)]
  | (k, v) :: rest =>
    if name = k then (name, value) :: rest
    else if name < k then (name, value) :: (k, v) :: rest
    else (k, v) :: insertOrdered name value rest

/-- Registers the mapping of a document type, in place of an earlier one. -/
def register (c : Catalog) (docType : String) (mapping : IndexMapping) : Catalog :=
  ⟨insertOrdered docType mapping c.mappings⟩

def mapping? (c : Catalog) (docType : String) : Option IndexMapping := Table.find? docType c.mappings

def docTypes (c : Catalog) : List String := Table.names c.mappings

/-- The mappings to consult: those of the known types among `types`, or all if none is known. -/
def candidates (c : Catalog) (types : List String) : List IndexMapping :=
  match types.filterMap c.mapping? with
  | [] => c.mappings.map Prod.snd
  | known => known

/-- Adds a facet unless its field has one already. -/
def addFacet (facets : List Facet) (facet : Facet) : List Facet :=
  if facets.any (·.field == facet.field) then facets else facets ++ [facet]

/-- The declared facets of the types; the first declaration of a field wins. -/
def facetsFor (c : Catalog) (types : List String) : List Facet :=
  ((c.candidates types).flatMap (·.facets)).foldl addFacet []

/-- The first candidate that has the field describes it. -/
def describe (c : Catalog) (field : String) (types : List String) : Option FieldInfo :=
  (c.candidates types).findSome? fun mapping =>
    (mapping.resolve? field).map fun found =>
      { fieldType := found.mapping.fieldType
        nestedPath := found.nestedPath
        missingIsZero := found.mapping.missingIsZero }

def lookup (c : Catalog) : FieldLookup := ⟨c.describe⟩

/-- What is read of the text of a catalog. -/
def outline : Json.Outline := .table IndexMapping.outline

def ofJson? : Json → Option Catalog
  | .obj members =>
    members.foldlM (fun catalog (docType, value) =>
      (IndexMapping.ofJson? value).map (catalog.register docType)) {}
  | _ => none

def ofValue (v : Json) : Except Failure Catalog :=
  match ofJson? v with
  | some c => .ok c
  | none => .error (.invalidRequest "Invalid schema")

def ofText (text : String) : Except Failure Catalog := ofValue ((Json.parse? outline text).getD .null)

end Catalog

end FacetedSearch
