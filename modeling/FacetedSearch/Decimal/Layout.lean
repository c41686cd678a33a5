import FacetedSearch.Decimal.Shortest

/-!
# Layout of binary64 numbers

How the shortest decimal of a number is written: positionally or with an exponent, with or without a fraction
on whole numbers.
-/

namespace FacetedSearch.Decimal

structure Style where
  /-- Whether a number with this exponent of its leading digit is written without an exponent. -/
  isPositional : Int → Bool
  /-- Whether a whole number written positionally ends in `.0`. -/
  keepsFraction : Bool
  /-- Where two shortest decimals are equally near. -/
  tie : Tie

def zeros (n : Nat) : String := String.ofList (List.replicate n '0')

def positional (style : Style) (ds : List Char) (lead : Int) : String :=
  if lead < 0 then "0." ++ zeros (-lead - 1).toNat ++ String.ofList ds
  else
    let places := lead.toNat + 1
    if ds.length ≤ places then
      String.ofList ds ++ zeros (places - ds.length) ++ (if style.keepsFraction then ".0" else "")
    else String.ofList (ds.take places) ++ "." ++ String.ofList (ds.drop places)

/-- One digit before the point and a signed exponent. -/
def exponential (ds : List Char) (lead : Int) : String :=
  let mantissa := match ds with
    | [d] => String.singleton d
    | d :: rest => String.singleton d ++ "." ++ String.ofList rest
    | [] => "0"
  mantissa ++ "e" ++ (if lead < 0 then "-" else "+") ++ toString lead.natAbs

def Digits.write (d : Digits) (style : Style) : String :=
  let ds := Nat.toDigits 10 d.coefficient
  let lead := d.exponent + ds.length - 1
  if style.isPositional lead then positional style ds lead else exponential ds lead

def write (style : Style) (x : Float) : String :=
  match x.toModel.unpack with
  | .notANumber => "NaN"
  | .infinity .positive => "inf"
  | .infinity .negative => "-inf"
  | .zero .positive => positional style ['0'] 0
  | .zero .negative => "-" ++ positional style ['0'] 0
  | .finite .positive m q _ => (shortest style.tie m q).write style
  | .finite .negative m q _ => "-" ++ (shortest style.tie m q).write style

end FacetedSearch.Decimal
