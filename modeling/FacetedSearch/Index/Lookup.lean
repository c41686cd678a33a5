import FacetedSearch.Index.FieldType
import FacetedSearch.Settings

/-!
# Field lookup

The compiler asks three things about a field: whether it holds dates, whether it holds numbers, and in which
repeated sub-object it lives. Anything that describes fields can answer.
-/

namespace FacetedSearch

structure FieldInfo where
  fieldType : FieldType
  /-- The deepest repeated ancestor, as a document path. -/
  nestedPath : Option String := none
  /-- A missing value counts as zero in range filters. -/
  missingIsZero : Bool := false
deriving DecidableEq, Repr

/-- Describes a field for the given document types; an unknown field has no description. -/
structure FieldLookup where
  describe : String → List String → Option FieldInfo

namespace FieldLookup

variable (lookup : FieldLookup) (field : String) (types : List String)

def isDate : Bool := (lookup.describe field types).any (·.fieldType.isDate)

def isNumeric : Bool := (lookup.describe field types).any (·.fieldType.isNumeric)

def nestedPath? : Option String := (lookup.describe field types).bind (·.nestedPath)

def missingIsZero : Bool := (lookup.describe field types).any (·.missingIsZero)

def isRangeable : Bool := lookup.isDate field types || lookup.isNumeric field types

end FieldLookup

/-! ## Views -/

/-- What a search over given document types knows about fields: their names in the index and their descriptions. -/
structure FieldView where
  settings : Settings
  lookup : FieldLookup
  types : List String

namespace FieldView

variable (view : FieldView) (field : String)

def isDate : Bool := view.lookup.isDate field view.types

def isRangeable : Bool := view.lookup.isRangeable field view.types

def missingIsZero : Bool := view.lookup.missingIsZero field view.types

/-- The indexed path of the repeated sub-object the field lives in. -/
def nestedPath? : Option String :=
  (view.lookup.nestedPath? field view.types).map view.settings.valueField

end FieldView

end FacetedSearch
