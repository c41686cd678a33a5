import FacetedSearch.Decimal.Literal
import FacetedSearch.Table

/-!
# JSON values

Values with their numbers kept as written: an integer of at most 64 bits or a finite binary64 number. Members of
an object keep their order; a value read from a text may repeat a name until it is collapsed.
-/

namespace FacetedSearch

inductive Number where
  | int (n : Int) (inRange : -0x8000000000000000 ≤ n ∧ n < 0x10000000000000000)
  | float (x : Float) (finite : x.isFinite = true)
deriving DecidableEq

inductive Json where
  | null
  | bool (b : Bool)
  | num (n : Number)
  | str (s : String)
  | arr (items : List Json)
  | obj (members : List (String × Json))

/-- The binary64 number nearest to an integer. -/
def nearestFloat (n : Int) : Float := Float.ofModel (Float.Model.ofInt n)

namespace Number

def ofInt64 (n : Int64) : Number :=
  .int n.toInt ⟨n.le_toInt, by have := n.toInt_lt; omega⟩

/-- A count; counts above the largest integer are not told apart from it. -/
def ofNat (n : Nat) : Number :=
  .int (min n 0xFFFFFFFFFFFFFFFF) ⟨by omega, by omega⟩

/-- The number as a signed 64-bit integer, if it is written as one. -/
def toInt64? : Number → Option Int64
  | .int n _ => if n < 0x8000000000000000 then some (Int64.ofInt n) else none
  | .float .. => none

/-- The number as an unsigned 64-bit integer, if it is written as one. -/
def toNat? : Number → Option Nat
  | .int n _ => if 0 ≤ n then some n.toNat else none
  | .float .. => none

def toFloat : Number → Float
  | .int n _ => nearestFloat n
  | .float x _ => x

theorem toInt64?_ofInt64 (n : Int64) : (ofInt64 n).toInt64? = some n := by
  have h : n.toInt < 0x8000000000000000 := n.toInt_lt
  rw [ofInt64, toInt64?, if_pos h, Int64.ofInt_toInt]

end Number

namespace Json

def ofInt64 (n : Int64) : Json := .num (.ofInt64 n)

def ofNat (n : Nat) : Json := .num (.ofNat n)

/-- A number that is not finite has no JSON form and becomes null. -/
def ofFloat (x : Float) : Json :=
  if h : x.isFinite = true then .num (.float x h) else .null

def ofStrings (ss : List String) : Json := .arr (ss.map .str)

def ofOption : Option String → Json
  | some s => .str s
  | none => .null

def single (key : String) (value : Json) : Json := .obj [(key, value)]

/-- The member of an object called `key`. -/
def get? (key : String) : Json → Option Json
  | .obj members => Table.find? key members
  | _ => none

def str? : Json → Option String
  | .str s => some s
  | _ => none

mutual

/-- The same value with every name once per object: the last value wins, at the first place. -/
def collapse : Json → Json
  | .arr items => .arr (collapseItems items)
  | .obj members => .obj (Table.ofList (collapseMembers members))
  | .null => .null
  | .bool b => .bool b
  | .num n => .num n
  | .str s => .str s

def collapseItems : List Json → List Json
  | [] => []
  | item :: rest => item.collapse :: collapseItems rest

def collapseMembers : List (String × Json) → List (String × Json)
  | [] => []
  | (key, value) :: rest => (key, value.collapse) :: collapseMembers rest

end

end Json

end FacetedSearch
