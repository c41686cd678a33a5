import FacetedSearch.Json.Record

/-!
# Field types

What an index stores in a field. Two distinctions matter: whether the field takes range filters, and whether it
opens a repeated sub-object.
-/

namespace FacetedSearch

inductive FieldType where
  /-- Full text with a keyword sub-field. -/
  | text
  | keyword
  | long
  | double
  | boolean
  | date
  /-- A sub-object whose fields belong to the parent document. -/
  | object
  /-- A repeated sub-object; conditions on one instance must stay together. -/
  | nested
deriving DecidableEq, Repr

namespace FieldType

def isNumeric : FieldType → Bool
  | long | double => true
  | _ => false

def isDate (t : FieldType) : Bool := t == date

def isNested (t : FieldType) : Bool := t == nested

/-- Whether the type carries sub-fields. -/
def hasProperties : FieldType → Bool
  | object | nested => true
  | _ => false

def supportsRange (t : FieldType) : Bool := t.isNumeric || t.isDate

def name : FieldType → String
  | text => "text"
  | keyword => "keyword"
  | long => "long"
  | double => "double"
  | boolean => "boolean"
  | date => "date"
  | object => "object"
  | nested => "nested"

/-- Types by name; integers and floats are stored as longs and doubles. -/
def ofName? : String → Option FieldType
  | "text" => some text
  | "keyword" => some keyword
  | "long" => some long
  | "integer" => some long
  | "double" => some double
  | "float" => some double
  | "boolean" => some boolean
  | "date" => some date
  | "object" => some object
  | "nested" => some nested
  | _ => none

def ofJson? (v : Json) : Option FieldType := v.tag?.bind ofName?

theorem ofName?_name (t : FieldType) : ofName? t.name = some t := by cases t <;> rfl

end FieldType

end FacetedSearch
