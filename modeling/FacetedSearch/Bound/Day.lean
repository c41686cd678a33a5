import FacetedSearch.Bound.Bounds
import FacetedSearch.Decimal.Literal
import FacetedSearch.Text.Affix

/-!
# Whole days

A bare date in a range stands for its whole day: it is completed with the first or the last minute of the day,
depending on the direction of the bound.
-/

namespace FacetedSearch.Bound

/-! ## Dates -/

def isLeapYear (year : Int) : Bool := year % 4 == 0 && (year % 100 != 0 || year % 400 == 0)

/-- The length of a month of the Gregorian calendar; zero for a number that names no month. -/
def daysInMonth (year : Int) (month : Nat) : Nat :=
  match month with
  | 1 | 3 | 5 | 7 | 8 | 10 | 12 => 31
  | 4 | 6 | 9 | 11 => 30
  | 2 => if isLeapYear year then 29 else 28
  | _ => 0

/-- Whether the calendar, extended to years -262143 to 262142, has the date. -/
def isCalendarDate (year : Int) (month day : Nat) : Bool :=
  -262143 ≤ year && year ≤ 262142 && 1 ≤ day && day ≤ daysInMonth year month

/-- A number of at most `width` digits after any blanks, and the rest. -/
def takeNumber? (width : Nat) (cs : List Char) : Option (Nat × List Char) :=
  let cs := cs.dropWhile Text.isBlank
  let digits := (cs.take width).takeWhile Char.isDigit
  if digits.isEmpty then none else some (Decimal.natOfDigits digits, cs.drop digits.length)

/-- A year after any blanks: four digits at most, or a sign and any number of digits. -/
def takeYear? (cs : List Char) : Option (Int × List Char) :=
  match cs.dropWhile Text.isBlank with
  | '-' :: rest => signed (-·) rest
  | '+' :: rest => signed id rest
  | rest => (takeNumber? 4 rest).map fun (n, rest) => ((n : Int), rest)
where
  /-- Digits that follow the sign at once. -/
  signed (apply : Int → Int) (rest : List Char) : Option (Int × List Char) :=
    let digits := rest.takeWhile Char.isDigit
    if digits.isEmpty then none
    else some (apply (Decimal.natOfDigits digits), rest.drop digits.length)

def takeDash? : List Char → Option (List Char)
  | '-' :: rest => some rest
  | _ => none

/-- Whether a text is a year, a month and a day that exist, joined by dashes. -/
def isDate (s : String) : Bool :=
  let parts := do
    let (year, rest) ← takeYear? s.toList
    let (month, rest) ← takeNumber? 2 (← takeDash? rest)
    let (day, rest) ← takeNumber? 2 (← takeDash? rest)
    if rest.isEmpty then some (year, month, day) else none
  parts.any fun (year, month, day) => isCalendarDate year month day

/-! ## Completion -/

/-- The minute a bare date stands for: the last one of the day for `gt` and `lte`, else the first. -/
def Direction.timeOfDay : Direction → String
  | .gt | .lte => "23:59"
  | .gte | .lt => "00:00"

/-- Completes a bare date; any other text is kept. -/
def completeDay (literal : String) (d : Direction) : String :=
  if isDate literal then literal ++ " " ++ d.timeOfDay else literal

end FacetedSearch.Bound
