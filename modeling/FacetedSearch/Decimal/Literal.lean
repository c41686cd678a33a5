/-!
# Number literals

Decimal texts read as integers and as binary64 numbers. A binary64 literal denotes the number nearest to its
exact value, ties going to the even one.
-/

namespace FacetedSearch.Decimal

/-- The number a run of decimal digits denotes. -/
def natOfDigits (ds : List Char) : Nat :=
  ds.foldl (fun n d => n * 10 + (d.toNat - 48)) 0

/-- An optional sign and the rest; `true` stands for minus. -/
def splitSign : List Char → Bool × List Char
  | '-' :: rest => (true, rest)
  | '+' :: rest => (false, rest)
  | rest => (false, rest)

/-- The leading digits and the rest. -/
def splitDigits (cs : List Char) : List Char × List Char := cs.span Char.isDigit

/-- An optional sign and at least one digit. -/
def integer? (s : String) : Option Int :=
  let (negative, rest) := splitSign s.toList
  match rest with
  | [] => none
  | ds => if ds.all Char.isDigit then
      some (if negative then -(natOfDigits ds : Int) else natOfDigits ds)
    else none

/-- An integer literal in the 64-bit range. -/
def int64? (s : String) : Option Int64 := do
  let n ← integer? s
  if -0x8000000000000000 ≤ n ∧ n < 0x8000000000000000 then some (Int64.ofInt n) else none

/-- The value `± coefficient · 10 ^ exponent`. -/
structure Scientific where
  negative : Bool
  coefficient : Nat
  exponent : Int
deriving DecidableEq, Repr

/-- The nearest binary64 number; zero keeps its sign. -/
def Scientific.toFloat (x : Scientific) : Float :=
  let magnitude := Float.ofScientific x.coefficient (x.exponent < 0) x.exponent.natAbs
  if x.negative then -magnitude else magnitude

/-- Digits before and after the point make one coefficient. -/
def Scientific.ofParts (negative : Bool) (whole fraction : List Char) (exponent : Int) : Scientific :=
  ⟨negative, natOfDigits (whole ++ fraction), exponent - fraction.length⟩

/-- An exponent mark with its digits, or nothing. -/
def exponent? : List Char → Option Int
  | [] => some 0
  | c :: rest =>
    if c = 'e' ∨ c = 'E' then integer? (String.ofList rest) else none

/-- Digits with an optional point among or beside them, at least one digit, then an optional exponent. -/
def scientific? (negative : Bool) (cs : List Char) : Option Scientific :=
  let (whole, rest) := splitDigits cs
  let (fraction, rest) := match rest with
    | '.' :: rest => splitDigits rest
    | rest => ([], rest)
  if whole.isEmpty && fraction.isEmpty then none
  else (exponent? rest).map (Scientific.ofParts negative whole fraction)

/-- The binary64 number of a literal: decimal notation, or a spelling of infinity or NaN in any case. -/
def float? (s : String) : Option Float :=
  let (negative, rest) := splitSign s.toList
  let word := rest.map Char.toLower
  if word = "inf".toList ∨ word = "infinity".toList then
    some (if negative then -1.0 / 0.0 else 1.0 / 0.0)
  else if word = "nan".toList then some (0.0 / 0.0)
  else (scientific? negative rest).map Scientific.toFloat

end FacetedSearch.Decimal
