import FacetedSearch.Json.Basic
import FacetedSearch.Decimal.Layout

/-!
# Bound values

A bound of a range, and a field value compared with it, is an integer, a binary64 number or a text. Texts are
compared with each other by code point; any other two values are compared as numbers where both denote one, and
as texts otherwise.
-/

namespace FacetedSearch.Bound

inductive Value where
  | long (n : Int64)
  | double (x : Float)
  /-- Dates, and literals that are no numbers. -/
  | text (s : String)
deriving DecidableEq

/-- Displayed numbers have no exponent, and whole ones no fraction. -/
def displayStyle : Decimal.Style where
  isPositional _ := true
  keepsFraction := false
  tie := .up

/-- The order of two binary64 numbers; NaN counts as equal to everything. -/
def compareFloats (x y : Float) : Ordering :=
  if x < y then .lt else if y < x then .gt else .eq

namespace Value

/-- A literal of a request: on numeric fields a finite number where it denotes one, a text otherwise. -/
def ofLiteral (literal : String) (numeric : Bool) : Value :=
  if numeric then
    match Decimal.int64? literal with
    | some n => .long n
    | none =>
      match Decimal.float? literal with
      | some x => if x.isFinite then .double x else .text literal
      | none => .text literal
  else .text literal

/-- The number a value denotes, if it denotes one. -/
def toFloat? : Value → Option Float
  | .long n => some (nearestFloat n.toInt)
  | .double x => some x
  | .text s => Decimal.float? s

def display : Value → String
  | .long n => toString n.toInt
  | .double x => Decimal.write displayStyle x
  | .text s => s

def compare (a b : Value) : Ordering :=
  match a, b with
  | .text s, .text t => Ord.compare s t
  | a, b =>
    match a.toFloat?, b.toFloat? with
    | some x, some y => compareFloats x y
    | _, _ => Ord.compare a.display b.display

/-! ## JSON form -/

def toJson : Value → Json
  | .long n => Json.ofInt64 n
  | .double x => Json.ofFloat x
  | .text s => .str s

/-- Integers of 64 bits are longs and other numbers doubles. -/
def ofNumber (n : Number) : Value :=
  match n.toInt64? with
  | some i => .long i
  | none => .double n.toFloat

/-- Numbers and texts only. -/
def ofJson? : Json → Option Value
  | .num n => some (ofNumber n)
  | .str s => some (.text s)
  | _ => none

end Value

end FacetedSearch.Bound
