/-!
# Shortest decimals

The decimal with the fewest digits that still reads back as a given binary64 number, and of those the nearest
one. The interval of reals that round to `m · 2 ^ q` is searched on the grids `10 ^ k`, coarse ones first: if a
grid has a point in the interval, so is one of the two grid points around the number itself.
-/

namespace FacetedSearch.Decimal

/-- The decimal `coefficient · 10 ^ exponent`. -/
structure Digits where
  coefficient : Nat
  exponent : Int
deriving DecidableEq, Repr

/-- Which grid point a number takes that lies halfway between two. -/
inductive Tie where
  | even
  | up
deriving DecidableEq, Repr

/-- Whether the halfway number above `c` goes to `c + 1`. -/
def Tie.goesUp : Tie → Nat → Bool
  | even, c => c % 2 = 1
  | up, _ => true

/-- The number `m · 2 ^ q` with its rounding interval, ends in units of `2 ^ (q - 2)`. -/
structure Rounding where
  low : Nat
  value : Nat
  high : Nat
  unit : Int
  /-- The ends themselves round to the number. -/
  closed : Bool

/-- A power of two has its lower neighbour at half the distance, except at the bottom of the range. -/
def Rounding.of (m : Nat) (q : Int) : Rounding :=
  { low := 4 * m - (if m = 0x10000000000000 ∧ -1074 < q then 1 else 2)
    value := 4 * m
    high := 4 * m + 2
    unit := q - 2
    closed := m % 2 = 0 }

/-- The nearer of the grid points beside the number that lie in the interval, on the grid `10 ^ k`. -/
def Rounding.onGrid? (r : Rounding) (tie : Tie) (k : Int) : Option Nat :=
  let left := Nat.pow 2 r.unit.toNat * Nat.pow 10 (-k).toNat
  let right := Nat.pow 10 k.toNat * Nat.pow 2 (-r.unit).toNat
  let inside (c : Nat) : Bool :=
    if r.closed then r.low * left ≤ c * right && c * right ≤ r.high * left
    else r.low * left < c * right && c * right < r.high * left
  let c := r.value * left / right
  match inside c, inside (c + 1) with
  | true, true =>
    match compare (2 * r.value * left) ((2 * c + 1) * right) with
    | .lt => some c
    | .gt => some (c + 1)
    | .eq => some (if tie.goesUp c then c + 1 else c)
  | true, false => some c
  | false, true => some (c + 1)
  | false, false => none

/-- Tries at most `steps` grids, each ten times finer than the one before. -/
def Rounding.search (r : Rounding) (tie : Tie) : Nat → Int → Digits
  | 0, k => ⟨0, k⟩
  | steps + 1, k =>
    match r.onGrid? tie k with
    | some c => ⟨c, k⟩
    | none => r.search tie steps (k - 1)

/-- The shortest decimal of `m · 2 ^ q`, for a positive `m` of at most 53 bits. -/
def shortest (tie : Tie) (m : Nat) (q : Int) : Digits :=
  -- The first grid is wider than the number; seventeen digits always suffice.
  (Rounding.of m q).search tie 24 (((m.log2 : Int) + q) * 30103 / 100000 + 2)

end FacetedSearch.Decimal
