import FacetedSearch.Failure
import FacetedSearch.Query.Basic
import FacetedSearch.Settings
import FacetedSearch.Text.Affix
import FacetedSearch.Text.Order

/-!
# Permissions

A caller sees the documents whose permission field holds one of the caller's principals. The clause that says so
is built here, and checked again on assembled filters: order and repeats of principals do not matter.
-/

namespace FacetedSearch

abbrev Principals := List String

/-- The principals of a comma-separated list; blanks around them and empty pieces are dropped. -/
def Principals.ofList (list : String) : Principals :=
  ((Text.pieces ',' list).map Text.trim).filter fun p => !p.isEmpty

def Principals.display (p : Principals) : String := String.intercalate "," p

structure PermissionGuard where
  field : String := ({} : Settings).permissionField
deriving DecidableEq, Repr

namespace PermissionGuard

/-- The clause that restricts a filter to the principals. -/
def clause (g : PermissionGuard) (principals : Principals) : Query := .terms g.field principals

/-- The values of a clause on the permission field. -/
def clauseValues? (g : PermissionGuard) : Query → Option (List String)
  | .terms field values => if field = g.field then some values else none
  | _ => none

/-- The values of every permission clause directly under the outer `must`. -/
def clauses (g : PermissionGuard) (filter : Query) : List (List String) :=
  filter.must.filterMap g.clauseValues?

/-- A filter needs a permission clause, and each one must name exactly the principals. -/
def verify (g : PermissionGuard) (filter : Query) (principals : Principals) : Except Failure Unit :=
  match g.clauses filter with
  | [] => .error .permissionMissing
  | found =>
    match found.find? fun values => !Text.sameMembers values principals with
    | some values =>
      .error (.permissionMismatch (Text.sortedSet principals) (Text.sortedSet values))
    | none => .ok ()

end PermissionGuard

end FacetedSearch
