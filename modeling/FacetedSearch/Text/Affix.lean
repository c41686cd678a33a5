/-!
# Prefixes, suffixes and dotted paths

Cutting a known beginning or end off a text, or the blanks around it, and the segments of a dotted path.
-/

namespace FacetedSearch.Text

/-- What follows `start` in `s`, if `s` begins with it. -/
def after? (start s : String) : Option String :=
  (start.toList.isPrefixOf? s.toList).map String.ofList

/-- What precedes `ending` in `s`, if `s` ends with it. -/
def before? (ending s : String) : Option String :=
  (ending.toList.isSuffixOf? s.toList).map String.ofList

/-- The pieces of `s` between the separators `c`; a text without separator is one piece. -/
def pieces (c : Char) (s : String) : List String :=
  (s.toList.splitOn c).map String.ofList

/-- The segments of a dotted path. -/
def segments (path : String) : List String := pieces '.' path

/-- `s` cut at its first `c`, which belongs to neither part. -/
def cutAt? (c : Char) (s : String) : Option (String × String) :=
  match s.toList.dropWhile (· != c) with
  | [] => none
  | _ :: rest => some (String.ofList (s.toList.takeWhile (· != c)), String.ofList rest)

/-- `s` with every `c` exchanged for `d`. -/
def exchange (c d : Char) (s : String) : String :=
  String.ofList (s.toList.map fun x => if x = c then d else x)

/-- `s` with its first `c` exchanged for `d`. -/
def exchangeFirst (c d : Char) (s : String) : String :=
  match cutAt? c s with
  | some (a, b) => a ++ String.ofList [d] ++ b
  | none => s

/-- The part of a dotted path below `scope`: `a.b.c` below `a` is `b.c`. -/
def below? (scope path : String) : Option String :=
  after? (scope ++ ".") path

/-! ## Blanks -/

/-- Membership in the Unicode property `White_Space`. -/
def isBlank (c : Char) : Bool :=
  let n := c.toNat
  (0x09 ≤ n && n ≤ 0x0D) || n == 0x20 || n == 0x85 || n == 0xA0 || n == 0x1680 ||
    (0x2000 ≤ n && n ≤ 0x200A) || n == 0x2028 || n == 0x2029 || n == 0x202F || n == 0x205F ||
    n == 0x3000

/-- The text without the blanks at its two ends. -/
def trim (s : String) : String :=
  String.ofList ((s.toList.dropWhile isBlank).reverse.dropWhile isBlank).reverse

end FacetedSearch.Text
