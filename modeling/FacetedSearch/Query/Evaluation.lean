import FacetedSearch.Query.Wire
import FacetedSearch.Text.Affix

/-!
# Evaluation of queries

What a query means on one JSON document. Arrays are looked through at any depth and nulls hold nothing. A field
is searched from the innermost instance of a repeated sub-object that owns it, and its keyword sub-field stands
for the field itself.
-/

namespace FacetedSearch

/-- A document and the instances of repeated sub-objects in scope, innermost first. -/
structure Scope where
  root : Json
  instances : List (String × Json) := []

namespace Json

mutual

/-- The values at a path; arrays on the way and at the end are looked through. -/
def valuesAt : Json → List String → List Json
  | .arr items, path => valuesAtItems items path
  | .null, _ => []
  | .obj members, segment :: path => valuesAtMember members segment path
  | .obj members, [] => [.obj members]
  | .bool b, [] => [.bool b]
  | .num n, [] => [.num n]
  | .str s, [] => [.str s]
  | _, _ :: _ => []

def valuesAtItems : List Json → List String → List Json
  | [], _ => []
  | item :: rest, path => item.valuesAt path ++ valuesAtItems rest path

def valuesAtMember : List (String × Json) → String → List String → List Json
  | [], _, _ => []
  | (key, value) :: rest, name, path =>
    if key = name then value.valuesAt path else valuesAtMember rest name path

end

def isObject : Json → Bool
  | .obj _ => true
  | _ => false

end Json

namespace Scope

/-- The innermost instance that owns the field, and the path of the field below it. -/
def anchorIn (root : Json) (field : String) : List (String × Json) → Json × String
  | [] => (root, field)
  | (path, object) :: outer =>
    match Text.below? path field with
    | some rest => (object, rest)
    | none => anchorIn root field outer

def found (scope : Scope) (field : String) : List Json :=
  let (base, path) := anchorIn scope.root field scope.instances
  base.valuesAt (Text.segments path)

/-- The leaf values of a field, whose name may carry the raw suffix. -/
def leaves (rawSuffix : String) (scope : Scope) (field : String) : List Json :=
  (scope.found ((Text.before? rawSuffix field).getD field)).filter (!·.isObject)

/-- The instances of a repeated sub-object. -/
def objects (scope : Scope) (path : String) : List Json := (scope.found path).filter (·.isObject)

def enter (scope : Scope) (path : String) (object : Json) : Scope :=
  { scope with instances := (path, object) :: scope.instances }

end Scope

/-- A leaf as it is compared with bounds: timestamps get a blank between date and time. -/
def Bound.Value.ofLeaf? : Json → Option Bound.Value
  | .num n => some (.ofNumber n)
  | .str s => some (.text (Text.exchangeFirst 'T' ' ' s))
  | _ => none

namespace Query

mutual

def holds (rawSuffix : String) : Query → Scope → Bool
  | bool must mustNot should, scope =>
    allHold rawSuffix must scope && !anyHolds rawSuffix mustNot scope &&
      (should.isEmpty || !must.isEmpty || anyHolds rawSuffix should scope)
  | terms field values, scope =>
    (scope.leaves rawSuffix field).any fun leaf => (scalarText? leaf).any (values.contains ·)
  | matching field value, scope =>
    (scope.leaves rawSuffix field).any fun leaf => scalarText? leaf == some value
  | range field bounds, scope =>
    (scope.leaves rawSuffix field).any fun leaf => (Bound.Value.ofLeaf? leaf).any bounds.contains
  | present field, scope => !(scope.leaves rawSuffix field).isEmpty
  | nested path inner, scope =>
    (scope.objects path).any fun object => holds rawSuffix inner (scope.enter path object)

def allHold (rawSuffix : String) : List Query → Scope → Bool
  | [], _ => true
  | query :: rest, scope => holds rawSuffix query scope && allHold rawSuffix rest scope

def anyHolds (rawSuffix : String) : List Query → Scope → Bool
  | [], _ => false
  | query :: rest, scope => holds rawSuffix query scope || anyHolds rawSuffix rest scope

end

theorem allHold_eq_all (rawSuffix : String) (qs : List Query) (scope : Scope) :
    allHold rawSuffix qs scope = qs.all (holds rawSuffix · scope) := by
  induction qs with
  | nil => rfl
  | cons q qs ih => simp [allHold, ih]

theorem anyHolds_eq_any (rawSuffix : String) (qs : List Query) (scope : Scope) :
    anyHolds rawSuffix qs scope = qs.any (holds rawSuffix · scope) := by
  induction qs with
  | nil => rfl
  | cons q qs ih => simp [anyHolds, ih]

def accepts (rawSuffix : String) (query : Query) (document : Json) : Bool :=
  holds rawSuffix query { root := document }

end Query

end FacetedSearch
