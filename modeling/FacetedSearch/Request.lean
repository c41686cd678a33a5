import FacetedSearch.Failure
import FacetedSearch.Json.Basic
import FacetedSearch.Text.Affix
import FacetedSearch.Text.Percent

/-!
# Requests

A request is a list of parameters in the order in which they came; a field may come any number of times. As a query
string it is pairs `field=value` joined by `&`, percent-encoded. In reading, a leading `?` is allowed, a pair without
`=` has an empty value, and `+` stands for a blank.
-/

namespace FacetedSearch

open Text

/-- One parameter as received; marks in the field are interpreted later. -/
structure Parameter where
  field : String
  value : String
deriving DecidableEq, Repr

abbrev Request := List Parameter

namespace Request

/-- Every value given for `field`, in order. -/
def values (r : Request) (field : String) : List String :=
  (r.filter fun p => p.field = field).map Parameter.value

def value? (r : Request) (field : String) : Option String := (r.values field).head?

end Request

/-! ## Writing -/

/-- Every escaped mark `!` put back as it is. -/
def plainMarks : List Char → List Char
  | '%' :: '2' :: '1' :: rest => '!' :: plainMarks rest
  | c :: rest => c :: plainMarks rest
  | [] => []

/-- The mark stays readable in fields. -/
def encodeField (field : String) : String :=
  String.ofList (plainMarks (Percent.encode field.toList))

def encodeValue (value : String) : String := String.ofList (Percent.encode value.toList)

def Parameter.encode (p : Parameter) : String := encodeField p.field ++ "=" ++ encodeValue p.value

namespace Request

/-- The query string without a leading `?`. -/
def encode (r : Request) : String := String.intercalate "&" (r.map Parameter.encode)

def encodeWithout (r : Request) (index : Nat) : String := encode (r.eraseIdx index)

end Request

/-! ## Reading -/

/-- Describes where octets stop being a text. -/
def describeFault : Utf8.Fault → String
  | .invalid length index =>
    "invalid utf-8 sequence of " ++ toString length ++ " bytes from index " ++ toString index
  | .incomplete index => "incomplete utf-8 byte sequence from index " ++ toString index

def decodeComponent (component : String) : Except Failure String :=
  match Percent.decode (exchange '+' ' ' component).toList with
  | .ok cs => .ok (String.ofList cs)
  | .error fault =>
    .error (.invalidRequest
      ("Bad query string component " ++ quoted component ++ ": " ++ describeFault fault))

def Parameter.ofPair (pair : String) : Except Failure Parameter := do
  let (field, value) := (cutAt? '=' pair).getD (pair, "")
  return ⟨← decodeComponent field, ← decodeComponent value⟩

/-- The parameters of a query string; empty pairs are skipped. -/
def Request.ofQueryString (query : String) : Except Failure Request :=
  let body := (after? "?" query).getD query
  ((pieces '&' body).filter fun pair => !pair.isEmpty).mapM Parameter.ofPair

/-! ## Applied filters -/

/-- What is shown beside the results for one filter, with a link to the same search without it. -/
structure AppliedFilter where
  field : String
  term : String
  /-- Relative link to the request without this parameter. -/
  remove : String
deriving DecidableEq, Repr

def AppliedFilter.of (request : Request) (index : Nat) (p : Parameter) : AppliedFilter :=
  ⟨p.field, p.value, "?" ++ request.encodeWithout index⟩

def AppliedFilter.toJson (a : AppliedFilter) : Json :=
  .obj [("field", .str a.field), ("term", .str a.term), ("remove", .str a.remove)]

end FacetedSearch
